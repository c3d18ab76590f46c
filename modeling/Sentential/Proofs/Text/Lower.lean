import Mathlib.Data.List.Basic
import Mathlib.Data.List.TakeWhile
import Mathlib.Tactic.Lemma
import Sentential.Text.Lower

/-!
# How a text is lowered

Only a capital sigma depends on the characters around it, and it looks no further than to the next
character that counts. A character that counts and has no case (`Breaks`) therefore parts a text
into two that are lowered on their own (`lower_append_cons`), and a text without a capital sigma is
lowered character by character (`lower_eq_flatMap`). What has been lowered is steady: lowering
leaves it as it is (`steady_of_mem_lower`).
-/

namespace Sentential.Text

/-- Whether a character stays as it is and ends what a sigma looks at. -/
def Breaks (c : Char) : Prop :=
  inRanges c.toNat caseIgnorableRanges = false ∧ inRanges c.toNat casedRanges = false ∧
    c ≠ 'Σ' ∧ lowerChar c = [c]

instance : DecidablePred Breaks := fun c =>
  inferInstanceAs (Decidable (inRanges c.toNat caseIgnorableRanges = false ∧
    inRanges c.toNat casedRanges = false ∧ c ≠ 'Σ' ∧ lowerChar c = [c]))

/-- What stands behind a break does not count. -/
lemma casedNext_append_cons {c : Char} (breaks : Breaks c) (s t : Text) :
    casedNext (s ++ c :: t) = casedNext s := by
  obtain ⟨counts, caseless, _, _⟩ := breaks
  induction s with
  | nil => simp [casedNext, counts, caseless]
  | cons d s ih =>
    by_cases ignored : inRanges d.toNat caseIgnorableRanges = true
    · simpa [casedNext, ignored] using ih
    · simp [casedNext, ignored]

/-- What stands before a break does not count. -/
lemma lowerFrom_append_before {c : Char} (breaks : Breaks c) (s before older : Text) :
    lowerFrom (before ++ c :: older) s = lowerFrom before s := by
  induction s generalizing before with
  | nil => rfl
  | cons d s ih =>
    have e := ih (d :: before)
    rw [List.cons_append] at e
    rw [lowerFrom, lowerFrom, e, lowerSigma, lowerSigma, casedNext_append_cons breaks]

/-- A character that breaks a text is a place where lowering begins anew. -/
lemma lowerFrom_append_cons {c : Char} (breaks : Breaks c) (s t before : Text) :
    lowerFrom before (s ++ c :: t) = lowerFrom before s ++ c :: lower t := by
  induction s generalizing before with
  | nil =>
    have e := lowerFrom_append_before breaks t [] before
    obtain ⟨_, _, ne, same⟩ := breaks
    rw [List.nil_append] at e
    show (if c = 'Σ' then [lowerSigma before t] else lowerChar c) ++ lowerFrom (c :: before) t
      = c :: lower t
    rw [if_neg ne, same, e]
    rfl
  | cons d s ih =>
    rw [List.cons_append, lowerFrom, lowerFrom, ih, lowerSigma, lowerSigma,
      casedNext_append_cons breaks, List.append_assoc]

/-- The texts before and behind a break are lowered on their own. -/
lemma lower_append_cons {c : Char} (breaks : Breaks c) (s t : Text) :
    lower (s ++ c :: t) = lower s ++ c :: lower t :=
  lowerFrom_append_cons breaks s t []

/-- Behind a character that breaks a text, lowering begins anew. -/
lemma lower_cons {c : Char} (breaks : Breaks c) (s : Text) : lower (c :: s) = c :: lower s :=
  lower_append_cons breaks [] s

/-- A space breaks a text. -/
lemma breaks_space : Breaks ' ' := by decide

/-- The marks of readings break a text. -/
lemma breaks_mark : ∀ c ∈ [' ', '(', ')', ','], Breaks c := by decide

/-! ## The characters of a lowered text -/

/-- A code point is lowered by the run that holds it. -/
lemma lowerCode?_eq_some {code lowered : Nat} {table : List CaseRun}
    (h : lowerCode? code table = some lowered) :
    ∃ run ∈ table, run.first ≤ code ∧ code ≤ run.last ∧ (code - run.first) % run.step = 0 ∧
      lowered = run.target + (code - run.first) := by
  induction table with
  | nil => cases h
  | cons run more ih =>
    rw [lowerCode?] at h
    split at h
    · cases h
    · rename_i low
      split at h
      · rename_i found
        simp only [Bool.and_eq_true, decide_eq_true_eq, beq_iff_eq] at found
        exact ⟨run, List.mem_cons_self, by omega, found.1, found.2, (Option.some.inj h).symm⟩
      · obtain ⟨run', mem, h'⟩ := ih h
        exact ⟨run', List.mem_cons_of_mem run mem, h'⟩

/-- The forms of a run are code points of characters from `a` on. -/
def CaseRun.Sound (run : CaseRun) : Prop :=
  0x61 ≤ run.target ∧ (run.target + (run.last - run.first) < 0xD800 ∨
    0xDFFF < run.target ∧ run.target + (run.last - run.first) < 0x110000)

instance : DecidablePred CaseRun.Sound := fun run =>
  inferInstanceAs (Decidable (0x61 ≤ run.target ∧
    (run.target + (run.last - run.first) < 0xD800 ∨
      0xDFFF < run.target ∧ run.target + (run.last - run.first) < 0x110000)))

set_option maxRecDepth 4000 in
/-- The forms of all runs are code points of characters. -/
lemma lowerRuns_sound : ∀ run ∈ lowerRuns, run.Sound := by
  decide

/-- The form of a code point is that of a character from `a` on. -/
lemma lowerCode?_valid {code lowered : Nat} (h : lowerCode? code lowerRuns = some lowered) :
    0x61 ≤ lowered ∧ (Char.ofNat lowered).toNat = lowered := by
  obtain ⟨run, mem, low, high, _, rfl⟩ := lowerCode?_eq_some h
  obtain ⟨small, valid⟩ := lowerRuns_sound run mem
  refine ⟨by omega, ?_⟩
  have isValid : (run.target + (code - run.first)).isValidChar := by
    rw [Nat.isValidChar]
    omega
  rw [Char.ofNat, dif_pos isValid]
  rfl

/-- What a character is lowered to is itself or a character from `a` on. -/
lemma mem_lowerChar {c d : Char} (mem : d ∈ lowerChar c) : d = c ∨ 0x61 ≤ d.toNat := by
  rw [lowerChar] at mem
  split at mem
  · right
    revert d
    decide
  · split at mem
    · rename_i lowered h
      obtain ⟨small, valid⟩ := lowerCode?_valid h
      rw [List.mem_singleton.1 mem, valid]
      exact .inr small
    · exact .inl (List.mem_singleton.1 mem)

/-- What a text is lowered to is in it or a character from `a` on. -/
lemma mem_lowerFrom {s before : Text} {d : Char} (mem : d ∈ lowerFrom before s) :
    d ∈ s ∨ 0x61 ≤ d.toNat := by
  induction s generalizing before with
  | nil => cases mem
  | cons c s ih =>
    rw [lowerFrom, List.mem_append] at mem
    rcases mem with mem | mem
    · split at mem
      · right
        rw [List.mem_singleton.1 mem, lowerSigma]
        split <;> decide
      · rcases mem_lowerChar mem with rfl | small
        · exact .inl List.mem_cons_self
        · exact .inr small
    · rcases ih mem with mem | small
      · exact .inl (List.mem_cons_of_mem c mem)
      · exact .inr small

/-- What comes before the letter `a` is not made by lowering. -/
lemma mem_lower {s : Text} {d : Char} (mem : d ∈ lower s) : d ∈ s ∨ 0x61 ≤ d.toNat :=
  mem_lowerFrom mem

/-! ## Steady characters -/

/-- Whether lowering leaves a character as it is, wherever it stands. -/
def Steady (c : Char) : Prop :=
  c ≠ 'Σ' ∧ lowerChar c = [c]

instance : DecidablePred Steady := fun c =>
  inferInstanceAs (Decidable (c ≠ 'Σ' ∧ lowerChar c = [c]))

/-- Without a capital sigma a text is lowered character by character. -/
lemma lower_eq_flatMap {s : Text} (h : 'Σ' ∉ s) : lower s = s.flatMap lowerChar := by
  -- only a capital sigma looks at what stands before it
  suffices h' : ∀ before, lowerFrom before s = s.flatMap lowerChar from h' []
  induction s with
  | nil => exact fun _ => rfl
  | cons c s ih =>
    intro before
    have ne : c ≠ 'Σ' := fun e => h (e ▸ List.mem_cons_self)
    have rest := ih (fun mem => h (List.mem_cons_of_mem c mem)) (c :: before)
    rw [lowerFrom, if_neg ne, rest, List.flatMap_cons]

/-- Lowering leaves a text of steady characters. -/
lemma lower_eq_self {s : Text} (h : ∀ c ∈ s, Steady c) : lower s = s := by
  have sigma : 'Σ' ∉ s := fun mem => (h _ mem).1 rfl
  have same : ∀ c ∈ s, lowerChar c = [c] := fun c mem => (h c mem).2
  rw [lower_eq_flatMap sigma, List.flatMap_congr same, List.flatMap_singleton']

/-- Whether no form of one run is a code point of another one. The forms lie apart, or those of
the one are even where the code points of the other are odd. -/
def CaseRun.avoids (a b : CaseRun) : Bool :=
  a.target + (a.last - a.first) < b.first || b.last < a.target ||
    ((a.step == 2 || a.first == a.last) && b.step == 2 && (a.target + b.first) % 2 == 1)

/-- The forms of no run are code points of another one. -/
lemma lowerRuns_avoid : (lowerRuns.all fun a => lowerRuns.all fun b => a.avoids b) = true := by
  decide +kernel

/-- A form has no form of its own. -/
lemma lowerCode?_lowered {code lowered : Nat} (h : lowerCode? code lowerRuns = some lowered) :
    lowerCode? lowered lowerRuns = none := by
  obtain ⟨a, memA, low, high, even, e⟩ := lowerCode?_eq_some h
  rw [Option.eq_none_iff_forall_ne_some]
  intro again h'
  obtain ⟨b, memB, low', high', even', _⟩ := lowerCode?_eq_some h'
  have apart := List.all_eq_true.1 (List.all_eq_true.1 lowerRuns_avoid a memA) b memB
  simp only [CaseRun.avoids, Bool.or_eq_true, Bool.and_eq_true, decide_eq_true_eq,
    beq_iff_eq] at apart
  -- the form is no code point of `b`: it lies outside, or its parity is wrong
  rcases apart with (far | far) | ⟨⟨two | one, two'⟩, odd⟩
  · omega
  · omega
  · rw [two] at even
    rw [two'] at even'
    omega
  · rw [two'] at even'
    omega

set_option maxRecDepth 4000 in
/-- No form of a run is a sigma or the capital I with a dot. -/
lemma lowerRuns_ne : ∀ run ∈ lowerRuns,
    (0x3A3 < run.target ∨ run.target + (run.last - run.first) < 0x3A3) ∧
      (0x130 < run.target ∨ run.target + (run.last - run.first) < 0x130 ∨
        run.step = 2 ∧ run.target % 2 = 1) := by
  decide

/-- The form of a code point stays as it is. -/
lemma steady_lowered {code lowered : Nat} (h : lowerCode? code lowerRuns = some lowered) :
    Steady (Char.ofNat lowered) := by
  have valid := (lowerCode?_valid h).2
  obtain ⟨run, mem, low, high, even, e⟩ := lowerCode?_eq_some h
  obtain ⟨sigma, dotted⟩ := lowerRuns_ne run mem
  have neSigma : Char.ofNat lowered ≠ 'Σ' := by
    intro same
    have code : lowered = 0x3A3 := by rw [← valid, same]; rfl
    omega
  have neDotted : Char.ofNat lowered ≠ 'İ' := by
    intro same
    have code : lowered = 0x130 := by rw [← valid, same]; rfl
    rcases dotted with far | far | ⟨two, odd⟩
    · omega
    · omega
    · rw [two] at even
      omega
  refine ⟨neSigma, ?_⟩
  rw [lowerChar, if_neg neDotted, valid, lowerCode?_lowered h]

/-- What a character is lowered to stays as it is. -/
lemma steady_of_mem_lowerChar {c d : Char} (ne : c ≠ 'Σ') (mem : d ∈ lowerChar c) : Steady d := by
  rw [lowerChar] at mem
  split at mem
  · revert d
    decide
  · rename_i neDotted
    split at mem
    · rename_i lowered h
      rw [List.mem_singleton.1 mem]
      exact steady_lowered h
    · rename_i none
      rw [List.mem_singleton.1 mem]
      exact ⟨ne, by rw [lowerChar, if_neg neDotted, none]⟩

/-- Lowering leaves what has been lowered. -/
lemma steady_of_mem_lower {s : Text} {d : Char} (mem : d ∈ lower s) : Steady d := by
  suffices h : ∀ before, d ∈ lowerFrom before s → Steady d from h [] mem
  clear mem
  induction s with
  | nil => exact fun _ mem => by cases mem
  | cons c s ih =>
    intro before mem
    rw [lowerFrom, List.mem_append] at mem
    rcases mem with mem | mem
    · split at mem
      · rw [List.mem_singleton.1 mem, lowerSigma]
        split <;> decide
      · rename_i ne
        exact steady_of_mem_lowerChar ne mem
    · exact ih _ mem

end Sentential.Text
