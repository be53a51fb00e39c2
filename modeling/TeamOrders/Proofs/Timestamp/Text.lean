import Mathlib.Algebra.Group.Nat.Defs
import Mathlib.Data.List.TakeWhile
import TeamOrders.Proofs.Number.Numeral
import TeamOrders.Proofs.Text.Trim
import TeamOrders.Proofs.Timestamp.Calendar

/-!
# The text of a moment is read as that moment

Each part of the text has a reader of its own, which takes the part off the front and leaves what
stands behind it. A moment that was read lies in a year that can be written, and a second has its
extra billion of nanoseconds only as the last one of a minute. Such a moment is read back from its
text, whatever the form and the offset in which it was first given.
-/

namespace TeamOrders.Timestamp

open Number Roster

/-! ### Rows of digits -/

theorem isAsciiDigit_iff {c : Char} : isAsciiDigit c = true ↔ 48 ≤ c.toNat ∧ c.toNat ≤ 57 := by
  simp only [isAsciiDigit, Bool.and_eq_true, decide_eq_true_eq]
  rfl

theorem digitsValue_append (value : Nat) (first second : List Char) :
    digitsValue value (first ++ second) = digitsValue (digitsValue value first) second :=
  List.foldl_append

theorem digitsValue_replicate_zero (n : Nat) : digitsValue 0 (List.replicate n '0') = 0 := by
  induction n with
  | zero => rfl
  | succ n ih => exact ih

theorem digitsValue_lt {digits : List Char} (h : ∀ c ∈ digits, isAsciiDigit c = true)
    (value : Nat) : digitsValue value digits < (value + 1) * 10 ^ digits.length := by
  induction digits generalizing value with
  | nil => simp [digitsValue]
  | cons c digits ih =>
    have hdigit := isAsciiDigit_iff.mp (h c List.mem_cons_self)
    have hvalue : value * 10 + digitValue c + 1 ≤ (value + 1) * 10 := by
      change value * 10 + (c.toNat - 48) + 1 ≤ _
      omega
    calc digitsValue (value * 10 + digitValue c) digits
        < (value * 10 + digitValue c + 1) * 10 ^ digits.length :=
          ih (fun d hd => h d (List.mem_cons_of_mem c hd)) _
      _ ≤ (value + 1) * 10 * 10 ^ digits.length := Nat.mul_le_mul_right _ hvalue
      _ = (value + 1) * 10 ^ (digits.length + 1) := by rw [Nat.mul_assoc, Nat.pow_succ']

theorem readNumber_append {digits rest : List Char} {width : Nat}
    (hdigits : ∀ c ∈ digits, isAsciiDigit c = true) (hne : digits ≠ [])
    (hwidth : digits.length = width ∨
      digits.length ≤ width ∧ ∀ c ∈ rest.head?, isAsciiDigit c = false) :
    readNumber width (digits ++ rest) = some (digitsValue 0 digits, rest) := by
  have htaken : ((digits ++ rest).take width).takeWhile isAsciiDigit = digits := by
    rw [List.take_append, List.takeWhile_append_of_pos (fun c hc => hdigits c (List.mem_of_mem_take hc))]
    rcases hwidth with rfl | ⟨hle, hstop⟩
    · simp
    · rw [List.take_of_length_le hle]
      cases rest with
      | nil => simp
      | cons c rest =>
        have hc : isAsciiDigit c = false := hstop c rfl
        cases width - digits.length with
        | zero => simp
        | succ n => simp [hc]
  have hempty : digits.isEmpty = false := by simpa using hne
  simp [readNumber, htaken, hempty]

/-! ### Padded numbers -/

theorem toList_padded (width n : Nat) :
    (padded width n).toList = List.replicate (width - (numeral n).length) '0' ++ numeral n := by
  rw [padded, String.toList_append, String.toList_ofList]
  rfl

theorem isAsciiDigit_of_mem_padded {width n : Nat} {c : Char} (h : c ∈ (padded width n).toList) :
    isAsciiDigit c = true := by
  have hdigits : ∀ c ∈ asciiDigits, isAsciiDigit c = true :=
    List.all_iff_forall_prop.mp (by decide)
  rw [toList_padded, List.mem_append] at h
  rcases h with h | h
  · rw [List.eq_of_mem_replicate h]
    rfl
  · exact hdigits c (mem_asciiDigits_of_mem_numeral h)

theorem digitsValue_padded (width n : Nat) : digitsValue 0 (padded width n).toList = n := by
  rw [toList_padded, digitsValue_append, digitsValue_replicate_zero, digitsValue_numeral]

theorem padded_ne_nil (width n : Nat) : (padded width n).toList ≠ [] := by
  rw [toList_padded]
  exact List.append_ne_nil_of_right_ne_nil _ (numeral_ne_nil n)

theorem length_padded {width n : Nat} (hwidth : 0 < width) (h : n < 10 ^ width) :
    (padded width n).toList.length = width := by
  have hnumeral : (numeral n).length ≤ width := by
    rw [numeral_eq_toDigits]
    exact (Nat.length_toDigits_le_iff (by decide) hwidth).mpr h
  rw [toList_padded, List.length_append, List.length_replicate]
  omega

/-! ### Parts of a text -/

variable {rest : List Char}

theorem isBlank_eq_false_of_isAsciiDigit {c : Char} (h : isAsciiDigit c = true) :
    Text.isBlank c = false := by
  have hdigit := isAsciiDigit_iff.mp h
  simp [Text.isBlank, Text.inRanges, Text.blankRanges]
  omega

theorem exists_padded_eq_cons (width n : Nat) :
    ∃ c digits, (padded width n).toList = c :: digits ∧ isAsciiDigit c = true := by
  obtain ⟨c, digits, hcons⟩ := List.exists_cons_of_ne_nil (padded_ne_nil width n)
  have hmem : c ∈ (padded width n).toList := by
    rw [hcons]
    exact List.mem_cons_self
  exact ⟨c, digits, hcons, isAsciiDigit_of_mem_padded hmem⟩

theorem skip_cons {c : Char} (h : Text.isBlank c = false) : skip (c :: rest) = c :: rest := by
  apply Text.dropWhile_eq_self
  rintro d ⟨⟩
  exact h

theorem skip_padded (width n : Nat) :
    skip ((padded width n).toList ++ rest) = (padded width n).toList ++ rest := by
  obtain ⟨c, digits, hcons, hdigit⟩ := exists_padded_eq_cons width n
  rw [hcons]
  exact skip_cons (isBlank_eq_false_of_isAsciiDigit hdigit)

theorem readMark_cons {mark : Char} (h : Text.isBlank mark = false) :
    readMark mark (mark :: rest) = some rest := by
  simp [readMark, skip_cons h]

theorem readNumber_padded {width n : Nat} (hwidth : 0 < width) (h : n < 10 ^ width) :
    readNumber width ((padded width n).toList ++ rest) = some (n, rest) := by
  rw [readNumber_append (fun c => isAsciiDigit_of_mem_padded) (padded_ne_nil width n)
    (.inl (length_padded hwidth h)), digitsValue_padded]

/-- Behind a sign a number is read up to the mark behind it. -/
theorem readNumber_padded_dash (width n : Nat) :
    readNumber ((padded width n).toList ++ '-' :: rest).length
        ((padded width n).toList ++ '-' :: rest) = some (n, '-' :: rest) := by
  have hstop : ∀ c ∈ ('-' :: rest).head?, isAsciiDigit c = false := by
    rintro c ⟨⟩
    rfl
  rw [readNumber_append (fun c => isAsciiDigit_of_mem_padded) (padded_ne_nil width n)
    (.inr ⟨by simp, hstop⟩), digitsValue_padded]

theorem readPair_padded {n : Nat} (h : n < 100) :
    readPair ((padded 2 n).toList ++ rest) = some (n, rest) := by
  rw [readPair, skip_padded, readNumber_padded (by decide) h]

theorem readYear_cons {c : Char} {digits : List Char} (h : isAsciiDigit c = true) :
    readYear (c :: digits) = (readNumber 4 (c :: digits)).map fun (n, rest) => ((n : Int), rest) := by
  have hminus : c ≠ '-' := by
    rintro rfl
    exact absurd h (by decide)
  have hplus : c ≠ '+' := by
    rintro rfl
    exact absurd h (by decide)
  unfold readYear
  rw [skip_cons (isBlank_eq_false_of_isAsciiDigit h)]
  split
  · rename_i heq
    exact absurd (List.cons.inj heq).1 hminus
  · rename_i heq
    exact absurd (List.cons.inj heq).1 hplus
  · rfl

theorem readYear_signed (year : Int) :
    readYear ((if year < 0 then '-' else '+') :: ((padded 4 year.natAbs).toList ++ '-' :: rest))
      = some (year, '-' :: rest) := by
  have hskip {sign : Char} (h : Text.isBlank sign = false) :
      skip (sign :: ((padded 4 year.natAbs).toList ++ '-' :: rest))
        = sign :: ((padded 4 year.natAbs).toList ++ '-' :: rest) := skip_cons h
  split
  · have hneg : -(year.natAbs : Int) = year := by omega
    rw [readYear, hskip rfl]
    simp only [readNumber_padded_dash, Option.map_some, hneg]
  · have hpos : (year.natAbs : Int) = year := by omega
    rw [readYear, hskip rfl]
    simp only [readNumber_padded_dash, Option.map_some, hpos]

theorem readYear_yearText (year : Int) :
    readYear ((yearText year).toList ++ '-' :: rest) = some (year, '-' :: rest) := by
  unfold yearText
  split
  · rename_i hplain
    rw [Bool.and_eq_true, decide_eq_true_eq, decide_eq_true_eq] at hplain
    have hread : readNumber 4 ((padded 4 year.toNat).toList ++ '-' :: rest)
        = some (year.toNat, '-' :: rest) := readNumber_padded (by decide) (by omega)
    have hyear : (year.toNat : Int) = year := Int.toNat_of_nonneg hplain.1
    obtain ⟨c, digits, hcons, hdigit⟩ := exists_padded_eq_cons 4 year.toNat
    rw [hcons, List.cons_append] at hread ⊢
    simp only [readYear_cons hdigit, hread, Option.map_some, hyear]
  · have hsign : (if year < 0 then "-" else "+").toList = [if year < 0 then '-' else '+'] := by
      split <;> rfl
    rw [String.toList_append, hsign, List.append_assoc, List.singleton_append, readYear_signed]

/-- The digits of a fraction count as what they stand for in nine digits. -/
theorem readFraction_padded {width n : Nat} (hwidth : 0 < width) (hnine : width ≤ 9)
    (h : n < 10 ^ width) :
    readFraction (("." ++ padded width n).toList ++ ['Z'])
      = some (n * 10 ^ (9 - width), ['Z']) := by
  have hlength := length_padded hwidth h
  have hdigits : ((padded width n).toList ++ ['Z']).takeWhile isAsciiDigit
      = (padded width n).toList := by
    rw [List.takeWhile_append_of_pos fun c hc => isAsciiDigit_of_mem_padded hc]
    exact List.append_nil _
  have hcounted : (padded width n).toList.take 9 = (padded width n).toList :=
    List.take_of_length_le (by omega)
  have hempty : (padded width n).toList.isEmpty = false := by simpa using padded_ne_nil width n
  have hpoint : ".".toList = ['.'] := rfl
  rw [String.toList_append, hpoint, List.append_assoc, List.singleton_append]
  simp only [readFraction, hdigits, hcounted, hempty, digitsValue_padded]
  rw [List.drop_left, hlength]
  rfl

theorem readFraction_fractionText {nanos : Nat} (h : nanos < 1000000000) :
    readFraction ((fractionText nanos).toList ++ ['Z']) = some (nanos, ['Z']) := by
  unfold fractionText
  split
  · rename_i hzero
    rw [hzero]
    rfl
  split
  · have hnanos : nanos / 1000000 * 10 ^ (9 - 3) = nanos := by omega
    rw [readFraction_padded (by decide) (by decide) (by omega), hnanos]
  split
  · have hnanos : nanos / 1000 * 10 ^ (9 - 6) = nanos := by omega
    rw [readFraction_padded (by decide) (by decide) (by omega), hnanos]
  · rw [readFraction_padded (by decide) (by decide) h, Nat.sub_self, Nat.pow_zero, Nat.mul_one]

/-! ### Moments that can be written -/

def secondOfDay (t : Timestamp) : Nat := (t.seconds - t.seconds.fdiv 86400 * 86400).toNat

def date (t : Timestamp) : Day := Day.ofNumber (t.seconds.fdiv 86400)

theorem Day.lt_hundred_of_valid {d : Day} (h : d.valid = true) : d.month < 100 ∧ d.day < 100 := by
  have hdays : daysInMonth d.year d.month ≤ 31 := by
    unfold daysInMonth
    split
    · split <;> decide
    · split <;> decide
  simp only [Day.valid, Bool.and_eq_true, decide_eq_true_eq] at h
  omega

/-- The moment lies in a year that is counted, and a second is longer than others only as the last
one of a minute. -/
structure Proper (t : Timestamp) : Prop where
  firstYear_le : firstYear ≤ t.date.year
  le_lastYear : t.date.year ≤ lastYear
  nanos_lt : t.nanos < 2000000000
  leap : 1000000000 ≤ t.nanos → t.seconds % 60 = 59

theorem secondOfDay_spec (t : Timestamp) :
    t.seconds = t.seconds.fdiv 86400 * 86400 + t.secondOfDay ∧ t.secondOfDay < 86400 := by
  simp only [secondOfDay, Int.fdiv_eq_ediv_of_nonneg _ (by decide : (0 : Int) ≤ 86400)]
  omega

theorem toList_text (t : Timestamp) :
    t.text.toList = (yearText t.date.year).toList ++ '-' :: ((padded 2 t.date.month).toList
      ++ '-' :: ((padded 2 t.date.day).toList ++ 'T' :: ((padded 2 (t.secondOfDay / 3600)).toList
      ++ ':' :: ((padded 2 (t.secondOfDay / 60 % 60)).toList
      ++ ':' :: ((padded 2 (t.secondOfDay % 60 + t.nanos / 1000000000)).toList
      ++ ((fractionText (t.nanos % 1000000000)).toList ++ ['Z'])))))) := by
  have hdash : "-".toList = ['-'] := rfl
  have hday : "T".toList = ['T'] := rfl
  have hcolon : ":".toList = [':'] := rfl
  have hzone : "Z".toList = ['Z'] := rfl
  simp only [text, String.toList_append, hdash, hday, hcolon, hzone, List.append_assoc,
    List.singleton_append]
  rfl

structure Parts where
  date : Day
  hour : Nat
  minute : Nat
  second : Nat
  fraction : Nat
  offset : Int

/-- The moment that parts stand for. A sixtieth second is the leap second that shares the count of the
one before it. -/
def Parts.moment (p : Parts) : Timestamp :=
  let leap := if p.second = 60 then 1 else 0
  let local' := p.date.number * 86400 + p.hour * 3600 + p.minute * 60 + (p.second - leap : Nat)
  ⟨local' - p.offset, p.fraction + leap * 1000000000⟩

def parts (t : Timestamp) : Parts where
  date := t.date
  hour := t.secondOfDay / 3600
  minute := t.secondOfDay / 60 % 60
  second := t.secondOfDay % 60 + t.nanos / 1000000000
  fraction := t.nanos % 1000000000
  offset := 0

theorem moment_parts {t : Timestamp} (proper : t.Proper) : t.parts.moment = t := by
  obtain ⟨hseconds, hbelow⟩ := t.secondOfDay_spec
  have hnumber : t.date.number = t.seconds.fdiv 86400 := number_ofNumber _
  have hnanos := proper.nanos_lt
  have hleap := proper.leap
  have hfields : t.parts.moment = ⟨t.seconds, t.nanos⟩ := by
    by_cases hlast : t.parts.second = 60
    · have hsixty : t.secondOfDay % 60 + t.nanos / 1000000000 = 60 := hlast
      simp only [Parts.moment, if_pos hlast]
      simp only [parts, hnumber, Timestamp.mk.injEq]
      omega
    · have hsixty : t.secondOfDay % 60 + t.nanos / 1000000000 ≠ 60 := hlast
      simp only [Parts.moment, if_neg hlast]
      simp only [parts, hnumber, Timestamp.mk.injEq]
      omega
  exact hfields

/-! ### Reading moments -/

theorem readFraction_lt {s rest : List Char} {n : Nat} (h : readFraction s = some (n, rest)) :
    n < 1000000000 := by
  unfold readFraction at h
  split at h
  · rename_i s
    have hdigits : ∀ c ∈ (s.takeWhile isAsciiDigit).take 9, isAsciiDigit c = true := by
      intro c hc
      exact List.mem_takeWhile_imp (List.mem_of_mem_take hc)
    have hlength : ((s.takeWhile isAsciiDigit).take 9).length ≤ 9 := List.length_take_le ..
    have hvalue := digitsValue_lt hdigits 0
    simp only [] at h
    split at h
    · cases h
    · simp only [Option.some.injEq, Prod.mk.injEq] at h
      calc n = digitsValue 0 ((s.takeWhile isAsciiDigit).take 9)
              * 10 ^ (9 - ((s.takeWhile isAsciiDigit).take 9).length) := h.1.symm
        _ < 10 ^ ((s.takeWhile isAsciiDigit).take 9).length
              * 10 ^ (9 - ((s.takeWhile isAsciiDigit).take 9).length) :=
            Nat.mul_lt_mul_of_pos_right (by simpa using hvalue) (Nat.pow_pos (by decide))
        _ = 1000000000 := by rw [← Nat.pow_add, Nat.add_sub_of_le hlength]
  · cases h
    decide

theorem readHours_mod {s rest : List Char} {n : Nat} (h : readHours s = some (n, rest)) :
    n % 60 = 0 := by
  simp only [readHours, Option.bind_eq_bind, Option.bind_eq_some_iff] at h
  obtain ⟨hours, -, minutes, -, h⟩ := h
  split at h
  · cases h
    omega
  · cases h

theorem readOffset_mod {s rest : List Char} {n : Int} (h : readOffset s = some (n, rest)) :
    n % 60 = 0 := by
  have hhours : ∀ {s rest : List Char} {f : Nat → Int}, (∀ m, m % 60 = 0 → f m % 60 = 0) →
      (readHours s).map (fun (m, rest) => (f m, rest)) = some (n, rest) → n % 60 = 0 := by
    intro s rest f hf h
    obtain ⟨⟨m, rest⟩, hread, heq⟩ := Option.map_eq_some_iff.mp h
    cases heq
    exact hf m (readHours_mod hread)
  unfold readOffset at h
  split at h
  · exact hhours (f := fun m => (m : Int)) (by intro m hm; omega) h
  · exact hhours (f := fun m => -(m : Int)) (by intro m hm; omega) h
  · exact hhours (f := fun m => -(m : Int)) (by intro m hm; omega) h
  · split at h
    · cases h
      rfl
    · split at h
      · cases h
        rfl
      · cases h
  · split at h
    · cases h
      rfl
    · cases h
  · cases h

/-- What is read is put together from parts. -/
theorem exists_parts_of_read {s : String} {t : Timestamp} (h : read s = some t) :
    ∃ p : Parts, p.moment = t ∧ p.fraction < 1000000000 ∧ p.offset % 60 = 0 ∧
      firstYear ≤ t.date.year ∧ t.date.year ≤ lastYear := by
  unfold read at h
  obtain ⟨⟨year, rest⟩, -, h⟩ := Option.bind_eq_some_iff.mp h
  obtain ⟨rest, -, h⟩ := Option.bind_eq_some_iff.mp h
  obtain ⟨⟨month, rest⟩, -, h⟩ := Option.bind_eq_some_iff.mp h
  obtain ⟨rest, -, h⟩ := Option.bind_eq_some_iff.mp h
  obtain ⟨⟨day, rest⟩, -, h⟩ := Option.bind_eq_some_iff.mp h
  dsimp only at h
  split at h
  · split at h
    · obtain ⟨rest, -, h⟩ := Option.bind_eq_some_iff.mp h
      obtain ⟨⟨hour, rest⟩, -, h⟩ := Option.bind_eq_some_iff.mp h
      obtain ⟨rest, -, h⟩ := Option.bind_eq_some_iff.mp h
      obtain ⟨⟨minute, rest⟩, -, h⟩ := Option.bind_eq_some_iff.mp h
      obtain ⟨rest, -, h⟩ := Option.bind_eq_some_iff.mp h
      obtain ⟨⟨second, rest⟩, -, h⟩ := Option.bind_eq_some_iff.mp h
      obtain ⟨⟨fraction, rest⟩, hfraction, h⟩ := Option.bind_eq_some_iff.mp h
      obtain ⟨⟨offset, rest⟩, hoffset, h⟩ := Option.bind_eq_some_iff.mp h
      let p : Parts := ⟨⟨year, month, day⟩, hour, minute, second, fraction, offset⟩
      obtain ⟨-, h⟩ := Option.ite_none_left_eq_some.mp h
      obtain ⟨hyears, h⟩ := Option.ite_none_right_eq_some.mp h
      have hmoment : p.moment = t := Option.some.inj h
      rw [Bool.and_eq_true, decide_eq_true_eq, decide_eq_true_eq] at hyears
      rw [← hmoment]
      exact ⟨p, rfl, readFraction_lt hfraction, readOffset_mod hoffset, hyears⟩
    · cases h
  · cases h

theorem proper_of_read {s : String} {t : Timestamp} (h : read s = some t) : t.Proper := by
  obtain ⟨p, rfl, hfraction, hoffset, hfirst, hlast⟩ := exists_parts_of_read h
  refine ⟨hfirst, hlast, ?_, ?_⟩
  · simp only [Parts.moment]
    split <;> omega
  · simp only [Parts.moment]
    split
    · rename_i hsixty
      omega
    · omega

theorem bind_of_eq_some {α β : Type} {x : Option α} {a : α} {f : α → Option β} (h : x = some a) :
    (x >>= f) = f a := by
  rw [h]
  rfl

theorem read_text {t : Timestamp} (proper : t.Proper) : read t.text = some t := by
  have hvalid : t.date.valid = true := valid_ofNumber proper.firstYear_le proper.le_lastYear
  obtain ⟨hmonth, hday⟩ := Day.lt_hundred_of_valid hvalid
  obtain ⟨hseconds, hbelow⟩ := t.secondOfDay_spec
  have hnanos := proper.nanos_lt
  have hleap := proper.leap
  have hhour : t.secondOfDay / 3600 < 100 := by omega
  have hminute : t.secondOfDay / 60 % 60 < 100 := by omega
  have hsecond : t.secondOfDay % 60 + t.nanos / 1000000000 < 100 := by omega
  have hfraction : t.nanos % 1000000000 < 1000000000 := by omega
  have hdash : Text.isBlank '-' = false := by decide
  have hcolon : Text.isBlank ':' = false := by decide
  have hoffset : readOffset (skip ['Z']) = some (0, []) := by
    rw [skip_cons (by decide)]
    rfl
  rw [read, toList_text]
  refine (bind_of_eq_some (readYear_yearText _)).trans ?_
  refine (bind_of_eq_some (readMark_cons hdash)).trans ?_
  refine (bind_of_eq_some (readPair_padded hmonth)).trans ?_
  refine (bind_of_eq_some (readMark_cons hdash)).trans ?_
  refine (bind_of_eq_some (readPair_padded hday)).trans ?_
  refine (if_pos rfl).trans ?_
  refine (bind_of_eq_some rfl).trans ?_
  refine (bind_of_eq_some (readPair_padded hhour)).trans ?_
  refine (bind_of_eq_some (readMark_cons hcolon)).trans ?_
  refine (bind_of_eq_some (readPair_padded hminute)).trans ?_
  refine (bind_of_eq_some (readMark_cons hcolon)).trans ?_
  refine (bind_of_eq_some (readPair_padded hsecond)).trans ?_
  refine (bind_of_eq_some (readFraction_fractionText hfraction)).trans ?_
  refine (bind_of_eq_some hoffset).trans ?_
  have hpossible : ¬(!(skip []).isEmpty || !t.date.valid || decide (23 < t.secondOfDay / 3600)
      || decide (59 < t.secondOfDay / 60 % 60)
      || decide (60 < t.secondOfDay % 60 + t.nanos / 1000000000)
      || decide (86400 ≤ (0 : Int).natAbs)) = true := by
    simp [hvalid, skip, Text.trimStartBy]
    omega
  refine (if_neg hpossible).trans ?_
  change (if (decide (firstYear ≤ t.parts.moment.date.year)
    && decide (t.parts.moment.date.year ≤ lastYear)) = true then some t.parts.moment else none)
      = some t
  rw [moment_parts proper]
  simp [proper.firstYear_le, proper.le_lastYear]

end TeamOrders.Timestamp
