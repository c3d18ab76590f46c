import Mathlib.Tactic.Lemma
import Sentential.Proofs.Text.Rewrite

/-!
# The two sides of a character

A pattern whose phrases do not have a character, and which cannot tell what stands behind it from
the front of a text, acts apart on the two sides of every place of it (`Pattern.PartedAt`). Then a
text is rewritten as its two sides are (`Pattern.PartedAt.rewrite_append`), also by several patterns
one after the other (`Pattern.foldl_rewrite_append`).
-/

namespace Sentential.Text

/-- What is cut off from the front without a certain element ends in front of it. -/
lemma exists_of_append_cons {α : Type} {d : α} {s t q v : List α} (absent : d ∉ q)
    (e : s ++ d :: t = q ++ v) : ∃ w, s = q ++ w ∧ v = w ++ d :: t := by
  rcases List.append_eq_append_iff.1 e with ⟨b, eq, et⟩ | ⟨w, es, ev⟩
  · rcases b with _ | ⟨c, b⟩
    · exact ⟨[], by rw [eq, List.append_nil, List.append_nil], et.symm⟩
    · rw [eq, ← (List.cons.inj et).1] at absent
      simp at absent
  · exact ⟨w, es, ev⟩

namespace Pattern

/-- Whether a pattern acts apart on the two sides of a character: what it takes in front of it is
decided there, and behind it a text begins anew. -/
structure PartedAt (p : Pattern) (d : Char) : Prop where
  within : ∀ {before s hit}, p before s = some hit → hit.more < s.length
  front : ∀ before s t, p before (s ++ d :: t) = p before s
  anew : ∀ s, p (some d) s = p none s

section
variable {p q : Pattern} {d : Char}

/-- A pattern takes nothing at the character that parts it. -/
lemma PartedAt.miss (parted : p.PartedAt d) (before : Option Char) (t : Text) :
    p before (d :: t) = none := by
  have e : p before (d :: t) = p before [] := parted.front before [] t
  rw [e, Option.eq_none_iff_forall_ne_some]
  intro hit found
  exact Nat.not_lt_zero _ (parted.within found)

/-- Behind the character, a text is rewritten as it is at its start. -/
lemma PartedAt.rewriteFrom_anew (parted : p.PartedAt d) (t : Text) :
    rewriteFrom p 0 (some d) t = rewriteFrom p 0 none t := by
  cases t with
  | nil => rfl
  | cons c t => rw [rewriteFrom, rewriteFrom, parted.anew]

/-- What a pattern writes on the two sides of the character it writes there on its own. -/
lemma PartedAt.rewriteFrom_append (parted : p.PartedAt d) {skip : Nat} {before : Option Char}
    {s : Text} (le : skip ≤ s.length) (t : Text) :
    rewriteFrom p skip before (s ++ d :: t)
      = rewriteFrom p skip before s ++ d :: rewriteFrom p 0 none t := by
  induction s generalizing skip before with
  | nil =>
    rw [Nat.le_zero.1 le, List.nil_append, rewriteFrom_miss (parted.miss before t),
      parted.rewriteFrom_anew]
    rfl
  | cons c s ih =>
    cases skip with
    | succ skip => exact ih (Nat.le_of_succ_le_succ le)
    | zero =>
      have same : p before (c :: (s ++ d :: t)) = p before (c :: s) :=
        parted.front before (c :: s) t
      rw [List.cons_append, rewriteFrom, rewriteFrom, same]
      cases found : p before (c :: s) with
      | none =>
        rw [ih (Nat.zero_le _)]
        rfl
      | some hit =>
        have inside : hit.more ≤ s.length := Nat.le_of_lt_succ (parted.within found)
        simp only
        rw [ih inside, List.append_assoc]

/-- The texts on both sides of the character are rewritten apart. -/
lemma PartedAt.rewrite_append (parted : p.PartedAt d) (s t : Text) :
    p.rewrite (s ++ d :: t) = p.rewrite s ++ d :: p.rewrite t :=
  parted.rewriteFrom_append (Nat.zero_le _) t

/-- Two patterns act apart together if each does. -/
lemma PartedAt.or (hp : p.PartedAt d) (hq : q.PartedAt d) : (p.or q).PartedAt d where
  within := by
    intro before s hit found
    rcases Option.or_eq_some_iff.1 found with found | ⟨-, found⟩
    · exact hp.within found
    · exact hq.within found
  front before s t := by rw [Pattern.or, hp.front, hq.front, Pattern.or]
  anew s := by rw [Pattern.or, hp.anew, hq.anew, Pattern.or]

end

section
variable {phrase new : Text} {d : Char}

/-- A phrase that does not have the character reaches to no place of it. -/
lemma partedAt_literal (ne : phrase ≠ []) (absent : d ∉ phrase) :
    (literal phrase new).PartedAt d where
  within := by
    intro before s hit found
    obtain ⟨v, rfl, rfl⟩ := literal_eq_some found
    have pos := List.length_pos_of_ne_nil ne
    simp only [List.length_append]
    omega
  front before s t := by
    have same : phrase <+: s ++ d :: t ↔ phrase <+: s := by
      constructor
      · rintro ⟨v, e⟩
        obtain ⟨w, es, -⟩ := exists_of_append_cons absent e.symm
        exact ⟨w, es.symm⟩
      · exact fun front => front.trans (List.prefix_append s _)
    simp only [literal, List.isPrefixOf_iff_prefix, same]
  anew _ := rfl

/-- Neither does a phrase that stands as whole words, if the character is in no word. -/
lemma partedAt_wholeBy {fold : Char → Char} (ne : phrase ≠ []) (absent : fold d ∉ phrase)
    (other : isWordChar d = false) : (wholeBy fold phrase new).PartedAt d where
  within := by
    intro before s hit found
    obtain ⟨x, v, rfl, rfl, -, -, rfl⟩ := wholeBy_eq_some found
    have pos := List.length_pos_of_ne_nil ne
    simp only [List.length_append, List.length_map] at pos ⊢
    omega
  front before s t := by
    have edge : ∀ (c : Option Char) (w : Text),
        boundary c (w ++ d :: t).head? = boundary c w.head? := by
      intro c w
      cases w with
      | nil => simp [boundary, other]
      | cons e w => rfl
    apply Option.ext
    intro hit
    constructor
    · intro found
      obtain ⟨x, v, e, same, start, stop, rfl⟩ := wholeBy_eq_some found
      have absent' : d ∉ x := fun mem => absent (same ▸ List.mem_map_of_mem mem)
      obtain ⟨w, rfl, rfl⟩ := exists_of_append_cons absent' e
      rw [edge] at start stop
      exact wholeBy_append same start stop
    · intro found
      obtain ⟨x, w, rfl, same, start, stop, rfl⟩ := wholeBy_eq_some found
      rw [← edge] at start stop
      rw [List.append_assoc] at start ⊢
      exact wholeBy_append same start stop
  anew s := by
    have same : boundary (some d) s.head? = boundary none s.head? := by
      rw [boundary, boundary, Option.any_some, Option.any_none, other]
    rw [wholeBy, same, wholeBy]

/-- Several rewritings one after the other act apart where each does. -/
lemma foldl_rewrite_append {ps : List Pattern} (parted : ∀ p ∈ ps, p.PartedAt d) (s t : Text) :
    ps.foldl (fun s p => p.rewrite s) (s ++ d :: t)
      = ps.foldl (fun s p => p.rewrite s) s ++ d :: ps.foldl (fun s p => p.rewrite s) t := by
  induction ps generalizing s t with
  | nil => rfl
  | cons p ps ih =>
    have first := parted p List.mem_cons_self
    rw [List.foldl_cons, first.rewrite_append, List.foldl_cons, List.foldl_cons]
    exact ih (fun q mem => parted q (List.mem_cons_of_mem p mem)) _ _

end

end Pattern

end Sentential.Text
