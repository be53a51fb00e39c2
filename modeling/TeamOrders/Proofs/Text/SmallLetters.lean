import TeamOrders.Proofs.Text.Fold
import TeamOrders.Proofs.Text.Lowercase

/-!
# What a small letter is of

Putting a text in small letters neither makes nor hides anything that the passes before it look for. A
character either stays, or it is a letter and so are its small ones: neither is white space or a quote. A
form of an ASCII letter comes from a form of the same letter, a character of a word gives characters of a
word, and small letters have no small letters of their own.

Most of this is about the table of capital letters. It is checked run by run, the small letters of a run
being the codes between two bounds.
-/

namespace TeamOrders.Text

variable {c d : Char} {s : List Char}

/-! ### The table -/

namespace CapitalRun

def low (run : CapitalRun) : Nat := (run.first + run.shift).toNat

def high (run : CapitalRun) : Nat := (run.last + run.shift).toNat

def codes (run : CapitalRun) : List Nat :=
  List.range' run.first ((run.last - run.first) / run.step + 1) run.step

def small (run : CapitalRun) (code : Nat) : Nat := (code + run.shift).toNat

theorem covers_iff {run : CapitalRun} {code : Nat} : run.covers code = true ↔
    run.first ≤ code ∧ code ≤ run.last ∧ (code - run.first) % run.step = 0 := by
  simp [covers, and_assoc]

theorem mem_codes {run : CapitalRun} {code : Nat} (hstep : run.step = 1 ∨ run.step = 2)
    (h : run.covers code = true) : code ∈ run.codes := by
  obtain ⟨hfirst, hlast, hmod⟩ := covers_iff.mp h
  refine List.mem_range'.mpr ⟨(code - run.first) / run.step, ?_, ?_⟩
  · rcases hstep with hstep | hstep <;> rw [hstep] at hmod ⊢ <;> omega
  · rcases hstep with hstep | hstep <;> rw [hstep] at hmod ⊢ <;> omega

theorem small_between {run : CapitalRun} {code : Nat} (h : run.covers code = true) :
    run.low ≤ run.small code ∧ run.small code ≤ run.high := by
  obtain ⟨hfirst, hlast, -⟩ := covers_iff.mp h
  unfold low high small
  omega

/-- The run goes in steps of one or two, and its small letters are characters beyond ASCII, except for that
of the Kelvin sign. -/
def isRegular (run : CapitalRun) : Bool :=
  (run.step == 1 || run.step == 2) && Nat.ble 0x80 run.first &&
    (Nat.ble 0x80 run.low && (run.high.blt 0xD800 || Nat.blt 0xDFFF run.low && run.high.blt 0x110000)
      || run.first == 0x212A && run.last == 0x212A && run.shift == -8383)

/-- Neither a capital letter nor its small letter is white space, a quote, the dotted capital I or the long
s. -/
def isApartFromGaps (run : CapitalRun) : Bool :=
  ((0x130, 0x130) :: (0x17F, 0x17F) :: gapRanges).all fun range =>
    (run.last.blt range.1 || range.2.blt run.first) && (run.high.blt range.1 || range.2.blt run.low)

/-- No small letter is a capital letter. Where the codes of a run lie among those of another, they are the
odd ones among the even ones, or the other way round. -/
def isApartFromCapitals (run : CapitalRun) : Bool :=
  capitalRuns.all fun other => other.last.blt run.low || run.high.blt other.first ||
    ((run.step == 2 || run.low == run.high) && other.step == 2 && (run.low + other.first) % 2 == 1)

def isAlphabetic (run : CapitalRun) : Bool :=
  alphabeticRanges.any fun range => range.1.ble run.low && run.high.ble range.2

/-- Only recent capital letters have recent small letters. -/
def keepsRecent (run : CapitalRun) : Bool :=
  recentRanges.all fun range => run.high.blt range.1 || range.2.blt run.low ||
    run.codes.all fun code => !inRanges recentRanges (Char.ofNat (run.small code)) ||
      inRanges recentRanges (Char.ofNat code)

structure Sound (run : CapitalRun) : Prop where
  regular : run.isRegular = true
  apartFromGaps : run.isApartFromGaps = true
  apartFromCapitals : run.isApartFromCapitals = true
  alphabetic : run.isAlphabetic = true
  recent : run.keepsRecent = true

end CapitalRun

theorem capitalRuns_checked : (capitalRuns.all fun run =>
    run.isRegular && run.isApartFromGaps && run.isApartFromCapitals && run.isAlphabetic &&
      run.keepsRecent) = true := by
  decide +kernel

theorem sound_of_mem {run : CapitalRun} (hrun : run ∈ capitalRuns) : run.Sound := by
  have hchecked := List.all_eq_true.mp capitalRuns_checked run hrun
  simp only [Bool.and_eq_true] at hchecked
  obtain ⟨⟨⟨⟨hregular, hgaps⟩, hcapitals⟩, halphabetic⟩, hrecent⟩ := hchecked
  exact ⟨hregular, hgaps, hcapitals, halphabetic, hrecent⟩

theorem recent_apart_from_signs : apart recentRanges signRanges = true := by
  decide +kernel

/-- Beyond ASCII, words know no recent letters. -/
theorem isWord_of_recent (hc : 0x80 ≤ c.toNat) (h : inRanges recentRanges c = true) :
    isWord c = false := by
  rw [isWord_eq_of_not_ascii hc, h, inRanges_of_apart recent_apart_from_signs h, Bool.not_true,
    Bool.and_false, Bool.or_false]

/-! ### One capital letter beyond ASCII -/

section Run

variable {run : CapitalRun} {code : Nat}

theorem not_covers_small (hrun : run ∈ capitalRuns) (h : run.covers code = true) {other : CapitalRun}
    (hother : other ∈ capitalRuns) : other.covers (run.small code) = false := by
  have hapart := List.all_eq_true.mp (sound_of_mem hrun).apartFromCapitals other hother
  have hregular := (sound_of_mem hrun).regular
  obtain ⟨hlow, hhigh⟩ := CapitalRun.small_between h
  obtain ⟨hfirst, hlast, hmod⟩ := CapitalRun.covers_iff.mp h
  rw [Bool.eq_false_iff]
  intro hcovers
  obtain ⟨hfirst', hlast', hmod'⟩ := CapitalRun.covers_iff.mp hcovers
  simp only [Bool.or_eq_true, Bool.and_eq_true, Nat.blt_eq, Nat.ble_eq, beq_iff_eq,
    CapitalRun.isRegular] at hapart hregular
  rcases hapart with (hapart | hapart) | ⟨⟨hstep | hone, hstep'⟩, hodd⟩
  · omega
  · omega
  · -- The small letters and the other capital letters stand at every other code, and never at the same.
    rw [hstep] at hmod
    rw [hstep'] at hmod'
    unfold CapitalRun.low CapitalRun.high CapitalRun.small at *
    omega
  · rw [hstep'] at hmod'
    omega

theorem not_ascii_of_covers (hrun : run ∈ capitalRuns) (h : run.covers code = true) : 0x80 ≤ code := by
  have hregular := (sound_of_mem hrun).regular
  simp only [CapitalRun.isRegular, Bool.and_eq_true, Nat.ble_eq] at hregular
  exact Nat.le_trans hregular.1.2 (CapitalRun.covers_iff.mp h).1

theorem small_regular (hrun : run ∈ capitalRuns) (h : run.covers code = true) :
    (Char.ofNat (run.small code)).toNat = run.small code ∧
      (0x80 ≤ run.small code ∨ code = 0x212A ∧ run.small code = 0x6B) := by
  have hregular := (sound_of_mem hrun).regular
  obtain ⟨hlow, hhigh⟩ := CapitalRun.small_between h
  obtain ⟨hfirst, hlast, -⟩ := CapitalRun.covers_iff.mp h
  simp only [CapitalRun.isRegular, Bool.or_eq_true, Bool.and_eq_true, Nat.blt_eq, Nat.ble_eq,
    beq_iff_eq] at hregular
  have hbounds : (run.small code).isValidChar ∧
      (0x80 ≤ run.small code ∨ code = 0x212A ∧ run.small code = 0x6B) := by
    rcases hregular.2 with ⟨hbeyond, hvalid⟩ | ⟨⟨hkelvin, hkelvin'⟩, hshift⟩
    · unfold Nat.isValidChar
      omega
    · have hcode : code = 0x212A := by omega
      have hsmall : run.small code = 0x6B := by rw [CapitalRun.small, hshift, hcode]; rfl
      rw [hsmall]
      exact ⟨by decide, .inr ⟨hcode, rfl⟩⟩
  refine ⟨?_, hbounds.2⟩
  rw [Char.ofNat, dif_pos hbounds.1]
  rfl

/-- The code is apart from white space and quotes, the dotted capital I and the long s. -/
theorem apart_of_covers (hrun : run ∈ capitalRuns) (h : run.covers code = true) {range : CodeRange}
    (hrange : range ∈ (0x130, 0x130) :: (0x17F, 0x17F) :: gapRanges) :
    (code < range.1 ∨ range.2 < code) ∧ (run.small code < range.1 ∨ range.2 < run.small code) := by
  have hapart := List.all_eq_true.mp (sound_of_mem hrun).apartFromGaps range hrange
  obtain ⟨hlow, hhigh⟩ := CapitalRun.small_between h
  obtain ⟨hfirst, hlast, -⟩ := CapitalRun.covers_iff.mp h
  simp only [Bool.or_eq_true, Bool.and_eq_true, Nat.blt_eq] at hapart
  omega

theorem isWord_small (hrun : run ∈ capitalRuns) (h : run.covers c.toNat = true)
    (hc : isWord c = true) : isWord (Char.ofNat (run.small c.toNat)) = true := by
  obtain ⟨htoNat, hbeyond | ⟨-, hkelvin⟩⟩ := small_regular hrun h
  · obtain ⟨hlow, hhigh⟩ := CapitalRun.small_between h
    have halphabetic : inRanges alphabeticRanges (Char.ofNat (run.small c.toNat)) = true := by
      have hin := (sound_of_mem hrun).alphabetic
      obtain ⟨range, hrange, hbounds⟩ := List.any_eq_true.mp hin
      refine List.any_eq_true.mpr ⟨range, hrange, ?_⟩
      simp only [Bool.and_eq_true, Nat.ble_eq, decide_eq_true_eq, htoNat] at hbounds ⊢
      omega
    have hrecent : inRanges recentRanges (Char.ofNat (run.small c.toNat)) = false := by
      rw [Bool.eq_false_iff]
      intro hin
      obtain ⟨range, hrange, hbounds⟩ := List.any_eq_true.mp hin
      have hold := List.all_eq_true.mp (sound_of_mem hrun).recent range hrange
      have hregular := (sound_of_mem hrun).regular
      simp only [CapitalRun.isRegular, Bool.or_eq_true, Bool.and_eq_true, Nat.blt_eq,
        decide_eq_true_eq, htoNat, beq_iff_eq] at hold hbounds hregular
      rcases hold with hold | hold
      · omega
      · have hcode := List.all_eq_true.mp hold c.toNat (CapitalRun.mem_codes hregular.1.1 h)
        rw [Char.ofNat_toNat, hin, Bool.not_true, Bool.false_or] at hcode
        rw [isWord_of_recent (not_ascii_of_covers hrun h) hcode] at hc
        cases hc
    rw [isWord, if_neg (by omega), halphabetic, hrecent]
    rfl
  · rw [hkelvin]
    decide

end Run

/-! ### One character -/

/-- An ASCII letter, or a character beyond ASCII that is neither white space nor a quote. -/
def isInert (c : Char) : Bool := c.isAlpha || Nat.ble 0x80 c.toNat && !inRanges gapRanges c

theorem isInert_of_isAlpha (h : c.isAlpha = true) : isInert c = true := by
  rw [isInert, h, Bool.true_or]

theorem isInert_of_not_ascii (hc : 0x80 ≤ c.toNat) (h : inRanges gapRanges c = false) :
    isInert c = true := by
  rw [isInert, Nat.ble_eq_true_of_le hc, h, Bool.not_false, Bool.and_true, Bool.or_true]

theorem isBlank_of_isInert (h : isInert c = true) : isBlank c = false := by
  simp only [isInert, Bool.or_eq_true, Bool.and_eq_true, Bool.not_eq_true'] at h
  rcases h with halpha | ⟨-, hgaps⟩
  · exact isBlank_of_isWord (isWord_of_isAlpha halpha)
  · exact isBlank_eq_false_iff.mpr fun range hrange => inRanges_eq_false_iff.mp hgaps range
      (List.mem_cons_of_mem _ (List.mem_cons_of_mem _ (List.mem_cons_of_mem _ hrange)))

/-- What is put for a character in small letters: it stays, or it is a letter and so are these. -/
structure SmallForm (c : Char) (small : List Char) : Prop where
  ne_nil : small ≠ []
  isSmall : ∀ d ∈ small, IsSmall d
  same : small = [c] ∨ isInert c = true ∧ ∀ d ∈ small, isInert d = true
  isWord : isWord c = true → ∀ d ∈ small, isWord d = true
  foldsTo : ∀ letter, letter.isLower = true → letter ≠ 'i' → ∀ d ∈ small, foldsTo letter d = true →
    small = [d] ∧ foldsTo letter c = true

theorem toLower_of_not_ascii (hc : 0x80 ≤ c.toNat) : c.toLower = c := by
  apply toLower_of_not_isUpper
  rw [Bool.eq_false_iff]
  intro hupper
  have hbounds := isUpper_iff.mp hupper
  omega

theorem foldsTo_of_ascii {letter : Char} (hc : c.toNat < 0x80) :
    foldsTo letter c = true ↔ c.toLower = letter := by
  have hs : c ≠ 'ſ' := by
    rintro rfl
    exact absurd hc (by decide)
  have hk : c ≠ '\u212a' := by
    rintro rfl
    exact absurd hc (by decide)
  simp [foldsTo, hs, hk]

/-- Beyond ASCII only two characters are forms of an ASCII letter. -/
theorem foldsTo_of_not_ascii {letter : Char} (hletter : letter.isLower = true) (hc : 0x80 ≤ c.toNat)
    (h : foldsTo letter c = true) : c = 'ſ' ∨ c = '\u212a' := by
  have hne : c ≠ letter := by
    rintro rfl
    have hbounds := isLower_iff.mp hletter
    omega
  simp only [foldsTo, toLower_of_not_ascii hc, Bool.or_eq_true, Bool.and_eq_true, beq_iff_eq,
    or_assoc] at h
  exact (h.resolve_left hne).imp And.right And.right

theorem lowerChar_of_not_covered (hascii : 0x80 ≤ c.toNat) (hdotted : c ≠ '\u0130')
    (h : ∀ run ∈ capitalRuns, run.covers c.toNat = false) : lowerChar c = [c] := by
  have hnone : capitalRuns.find? (·.covers c.toNat) = none :=
    List.find?_eq_none.mpr fun run hrun => by rw [h run hrun]; decide
  rw [lowerChar, if_neg (by omega), if_neg hdotted, hnone]

theorem SmallForm.self (h : IsSmall c) : SmallForm c [c] where
  ne_nil := List.cons_ne_nil c []
  isSmall := List.forall_mem_singleton.mpr h
  same := .inl rfl
  isWord := fun hc => List.forall_mem_singleton.mpr hc
  foldsTo := by
    intro letter _ _ d hd hletter
    obtain rfl := List.mem_singleton.mp hd
    exact ⟨rfl, hletter⟩

theorem asciiCapitals_regular : ((List.range' 65 26).all fun code =>
    (Char.ofNat code).toLower.isLower &&
      (Char.ofNat code).toLower.toLower == (Char.ofNat code).toLower) = true := by
  decide

theorem isSmall_of_ascii (hc : c.toNat < 0x80) (h : c.toLower = c) : IsSmall c := by
  constructor
  · rintro rfl
    exact absurd hc (by decide)
  · rw [lowerChar, if_pos hc, h]

theorem smallForm_of_isUpper (h : c.isUpper = true) : SmallForm c [c.toLower] := by
  have hcode := isUpper_iff.mp h
  have hregular := List.all_eq_true.mp asciiCapitals_regular c.toNat
    (List.mem_range'_1.mpr ⟨hcode.1, by omega⟩)
  rw [Char.ofNat_toNat, Bool.and_eq_true, beq_iff_eq] at hregular
  obtain ⟨hlower, hself⟩ := hregular
  have hascii : c.toLower.toNat < 0x80 := by
    have hbounds := isLower_iff.mp hlower
    omega
  have halpha : c.toLower.isAlpha = true := isAlpha_iff.mpr (.inr hlower)
  exact {
    ne_nil := List.cons_ne_nil _ _
    isSmall := List.forall_mem_singleton.mpr (isSmall_of_ascii hascii hself)
    same := .inr ⟨isInert_of_isAlpha (isAlpha_iff.mpr (.inl h)),
      List.forall_mem_singleton.mpr (isInert_of_isAlpha halpha)⟩
    isWord := fun _ => List.forall_mem_singleton.mpr (isWord_of_isAlpha halpha)
    foldsTo := by
      intro letter _ _ d hd hletter
      obtain rfl := List.mem_singleton.mp hd
      rw [foldsTo_of_ascii hascii, hself] at hletter
      exact ⟨rfl, (foldsTo_of_ascii (by omega)).mpr hletter⟩ }

theorem sigma_kelvin_covered : (['Σ', '\u212a'].all fun c =>
    capitalRuns.any fun run => run.covers c.toNat) = true := by
  decide

/-- The sigma and the Kelvin sign are capital letters of the table. -/
theorem ne_of_not_covered (h : ∀ run ∈ capitalRuns, run.covers c.toNat = false) :
    c ≠ 'Σ' ∧ c ≠ '\u212a' := by
  have hcapital : ∀ d ∈ ['Σ', '\u212a'], c ≠ d := by
    rintro d hd rfl
    obtain ⟨run, hrun, hcovers⟩ := List.any_eq_true.mp (List.all_eq_true.mp sigma_kelvin_covered c hd)
    rw [h run hrun] at hcovers
    cases hcovers
  exact ⟨hcapital _ List.mem_cons_self, hcapital _ (List.mem_cons_of_mem _ List.mem_cons_self)⟩

/-- A small letter beyond ASCII is a form of no ASCII letter, unless it is the long s or the Kelvin sign. -/
theorem smallForm_of_not_ascii (hc : isInert c = true) (hbeyond : 0x80 ≤ d.toNat) (hsmall : IsSmall d)
    (hd : isInert d = true) (hword : isWord c = true → isWord d = true) (hlong : d ≠ 'ſ')
    (hkelvin : d ≠ '\u212a') : SmallForm c [d] where
  ne_nil := List.cons_ne_nil d []
  isSmall := List.forall_mem_singleton.mpr hsmall
  same := .inr ⟨hc, List.forall_mem_singleton.mpr hd⟩
  isWord := fun h => List.forall_mem_singleton.mpr (hword h)
  foldsTo := by
    intro letter hlower _ e he hletter
    obtain rfl := List.mem_singleton.mp he
    rcases foldsTo_of_not_ascii hlower hbeyond hletter with h | h
    · exact absurd h hlong
    · exact absurd h hkelvin

theorem smallForm_kelvin : SmallForm '\u212a' ['k'] where
  ne_nil := List.cons_ne_nil _ _
  isSmall := List.forall_mem_singleton.mpr (isSmall_of_ascii (by decide) (by decide))
  same := .inr ⟨by decide, List.forall_mem_singleton.mpr (by decide)⟩
  isWord := fun _ => List.forall_mem_singleton.mpr (by decide)
  foldsTo := by
    intro letter _ _ d hd hletter
    obtain rfl := List.mem_singleton.mp hd
    rw [foldsTo_of_ascii (by decide)] at hletter
    subst hletter
    exact ⟨rfl, by decide⟩

theorem smallForm_of_covers {run : CapitalRun} (hrun : run ∈ capitalRuns)
    (h : run.covers c.toNat = true) : SmallForm c [Char.ofNat (run.small c.toNat)] := by
  obtain ⟨htoNat, hbeyond⟩ := small_regular hrun h
  rcases hbeyond with hbeyond | ⟨hkelvin, hsmall⟩
  · have hword := isWord_small hrun h
    have hapart := fun (range : CodeRange) hrange => apart_of_covers hrun h (hrange : range ∈ _)
    have hgaps : ∀ range ∈ gapRanges, range ∈ (0x130, 0x130) :: (0x17F, 0x17F) :: gapRanges :=
      fun range hrange => List.mem_cons_of_mem _ (List.mem_cons_of_mem _ hrange)
    have huncovered : ∀ other ∈ capitalRuns, other.covers (run.small c.toNat) = false :=
      fun other hother => not_covers_small hrun h hother
    generalize Char.ofNat (run.small c.toNat) = d at htoNat hword ⊢
    rw [← htoNat] at hbeyond hapart huncovered
    have hdotted : d ≠ '\u0130' := by
      rintro rfl
      exact absurd (hapart (0x130, 0x130) List.mem_cons_self).2 (by decide)
    have hlong : d ≠ 'ſ' := by
      rintro rfl
      exact absurd (hapart (0x17F, 0x17F) (List.mem_cons_of_mem _ List.mem_cons_self)).2 (by decide)
    obtain ⟨hsigma, hkelvin⟩ := ne_of_not_covered huncovered
    have hcapital : isInert c = true := isInert_of_not_ascii (not_ascii_of_covers hrun h) <|
      inRanges_eq_false_iff.mpr fun range hrange => (hapart range (hgaps range hrange)).1
    have hinert : isInert d = true := isInert_of_not_ascii hbeyond <|
      inRanges_eq_false_iff.mpr fun range hrange => (hapart range (hgaps range hrange)).2
    exact smallForm_of_not_ascii hcapital hbeyond
      ⟨hsigma, lowerChar_of_not_covered hbeyond hdotted huncovered⟩ hinert hword hlong hkelvin
  · obtain rfl : c = '\u212a' := Char.toNat_inj.mp hkelvin
    rw [hsmall]
    exact smallForm_kelvin

theorem smallForm_sigma (h : c = 'ς' ∨ c = 'σ') : SmallForm 'Σ' [c] := by
  rcases h with rfl | rfl
  · exact smallForm_of_not_ascii (by decide) (by decide) ⟨by decide, by decide⟩
      (by decide) (fun _ => by decide) (by decide) (by decide)
  · exact smallForm_of_not_ascii (by decide) (by decide) ⟨by decide, by decide⟩
      (by decide) (fun _ => by decide) (by decide) (by decide)

theorem smallForm_dotted : SmallForm '\u0130' ['i', '\u0307'] where
  ne_nil := List.cons_ne_nil _ _
  isSmall := List.forall_mem_cons.mpr ⟨isSmall_of_ascii (by decide) (by decide),
    List.forall_mem_singleton.mpr ⟨by decide, by decide +kernel⟩⟩
  same := .inr ⟨by decide, List.forall_mem_cons.mpr ⟨by decide,
    List.forall_mem_singleton.mpr (by decide)⟩⟩
  isWord := fun _ => List.forall_mem_cons.mpr ⟨by decide,
    List.forall_mem_singleton.mpr (by decide +kernel)⟩
  foldsTo := by
    intro letter hlower hne d hd hletter
    rcases List.mem_cons.mp hd with rfl | hd
    · rw [foldsTo_of_ascii (by decide)] at hletter
      exact absurd hletter.symm hne
    · obtain rfl := List.mem_singleton.mp hd
      rcases foldsTo_of_not_ascii hlower (by decide) hletter with h | h <;> exact absurd h (by decide)

theorem smallForm_lowerChar (hsigma : c ≠ 'Σ') : SmallForm c (lowerChar c) := by
  cases hcapital : c.isUpper with
  | true =>
    have hcode := isUpper_iff.mp hcapital
    rw [lowerChar, if_pos (by omega)]
    exact smallForm_of_isUpper hcapital
  | false =>
    by_cases hascii : c.toNat < 0x80
    · have hself := toLower_of_not_isUpper hcapital
      rw [lowerChar, if_pos hascii, hself]
      exact .self (isSmall_of_ascii hascii hself)
    · by_cases hdotted : c = '\u0130'
      · subst hdotted
        exact smallForm_dotted
      · cases hfind : capitalRuns.find? (·.covers c.toNat) with
        | some run =>
          have hcovers := List.find?_some hfind
          rw [lowerChar, if_neg hascii, if_neg hdotted, hfind]
          exact smallForm_of_covers (List.mem_of_find?_eq_some hfind) hcovers
        | none =>
          have hsmall : lowerChar c = [c] := by
            rw [lowerChar, if_neg hascii, if_neg hdotted, hfind]
          rw [hsmall]
          exact .self ⟨hsigma, hsmall⟩

theorem lowerAfter_cons_smallForm (before : List Char) (c : Char) (s : List Char) :
    ∃ small, SmallForm c small ∧ lowerAfter before (c :: s) = small ++ lowerAfter (c :: before) s := by
  refine ⟨_, ?_, rfl⟩
  split
  · rename_i hsigma
    subst hsigma
    apply smallForm_sigma
    split
    · exact .inl rfl
    · exact .inr rfl
  · rename_i hsigma
    exact smallForm_lowerChar hsigma

theorem isSmall_of_mem_lower : ∀ c ∈ lower s, IsSmall c := by
  suffices hafter : ∀ before, ∀ c ∈ lowerAfter before s, IsSmall c from hafter []
  induction s with
  | nil => exact fun _ => List.forall_mem_nil _
  | cons c s ih =>
    intro before
    obtain ⟨small, hsmall, heq⟩ := lowerAfter_cons_smallForm before c s
    rw [heq]
    exact List.forall_mem_append.mpr ⟨hsmall.isSmall, ih (c :: before)⟩

end TeamOrders.Text
