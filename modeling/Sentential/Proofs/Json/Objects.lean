import Sentential.Proofs.Json.Strings

/-!
# The texts of JSON objects

A value of strings and objects has many texts: spaces may stand in front of each of its pieces
(`Spells`). Every one of them is read as the value if its objects nest to no more levels than the
reader allows, and is refused otherwise (`Spells.decides`). Both texts that are written for an
object are among them (`spells_compact`, `spells_prettyAt`).
-/

namespace Sentential.Json

open Text

variable {α : Type}

/-! ## Texts -/

/-- Whether a text holds nothing but spaces. -/
def IsGap (s : Text) : Prop :=
  ∀ c ∈ s, isSpace c = true

/-- The texts of a field, given the texts of its value. -/
inductive SpellsField (Item : α → Text → Prop) : Text × α → Text → Prop where
  | field {g k g' t key : Text} {value : α} :
    IsGap g →
    SpellsString key k →
    IsGap g' →
    Item value t →
    SpellsField Item (key, value) (g ++ '\x22' :: (k ++ (g' ++ ':' :: t)))

/-- The texts behind a field, which have further fields and the closing brace. -/
inductive SpellsTail (Item : α → Text → Prop) : List (Text × α) → Text → Prop where
  | close {g : Text} :
    IsGap g →
    SpellsTail Item [] (g ++ ['\x7d'])
  | more {g s t : Text} {field : Text × α} {fields : List (Text × α)} :
    IsGap g →
    SpellsField Item field s →
    SpellsTail Item fields t →
    SpellsTail Item (field :: fields) (g ++ ',' :: (s ++ t))

/-- The texts of an object behind its opening brace. -/
inductive SpellsObject (Item : α → Text → Prop) : List (Text × α) → Text → Prop where
  | empty {g : Text} :
    IsGap g →
    SpellsObject Item [] (g ++ ['\x7d'])
  | fields {s t : Text} {field : Text × α} {fields : List (Text × α)} :
    SpellsField Item field s →
    SpellsTail Item fields t →
    SpellsObject Item (field :: fields) (s ++ t)

/-- The texts of a value of strings and objects. -/
inductive Spells : Value → Text → Prop where
  | string {g text s : Text} :
    IsGap g →
    SpellsString text s →
    Spells (.string text) (g ++ '\x22' :: s)
  | object {g s : Text} {fields : List (Text × Value)} :
    IsGap g →
    SpellsObject Spells fields s →
    Spells (.object fields) (g ++ '\x7b' :: s)

/-- The whole texts of a value, which may have spaces at the end. -/
def SpellsWhole (v : Value) (s : Text) : Prop :=
  ∃ t g, s = t ++ g ∧ Spells v t ∧ IsGap g

/-- Whether the lists and objects of a value nest to at most a number of levels. -/
def NestsWithin : Nat → Value → Prop
  | levels + 1, .array items => ∀ item ∈ items, NestsWithin levels item
  | levels + 1, .object fields => ∀ field ∈ fields, NestsWithin levels field.2
  | 0, .array _ => False
  | 0, .object _ => False
  | _, _ => True

/-! ## Reading an object -/

/-- Whether a character is the first one of a text that is no space, with a rest behind it. -/
def Next (s : Text) (c : Char) (rest : Text) : Prop :=
  ∃ shorter, nextChar? s = some ⟨c, rest, shorter⟩

/-- Whether a reader finds a fault in a text. -/
def Fails (reader : Reader α) (s : Text) : Prop :=
  ∃ fault, reader s = .error fault

/-- Whether a reader takes a value from the front of a text under a condition, and finds a fault
without it. -/
def Decides (accepted : Prop) (reader : Reader α) (s : Text) (value : α) (rest : Text) : Prop :=
  (accepted → Reads reader s value rest) ∧ (¬ accepted → Fails reader s)

section
variable {reader : Reader α} {s t u v rest key : Text} {value : α} {fields : List (Text × α)}

/-- The next character behind a gap is the first that is no space. -/
lemma next_gap {g : Text} {c : Char} (gap : IsGap g) (solid : isSpace c = false) :
    Next (g ++ c :: rest) c rest := by
  induction g with
  | nil => exact ⟨Nat.lt_succ_self _, by simp only [List.nil_append, nextChar?, solid]; rfl⟩
  | cons d g ih =>
    obtain ⟨shorter, e⟩ := ih fun b mem => gap b (List.mem_cons_of_mem d mem)
    have space : isSpace d = true := gap d List.mem_cons_self
    refine ⟨Nat.lt_succ_of_lt shorter, ?_⟩
    simp only [List.cons_append, nextChar?, space, if_true, e]
    rfl

/-- A gap has no next character. -/
lemma nextChar?_gap {g : Text} (gap : IsGap g) : nextChar? g = none := by
  induction g with
  | nil => rfl
  | cons d g ih =>
    have space : isSpace d = true := gap d List.mem_cons_self
    rw [nextChar?, if_pos space, ih fun b mem => gap b (List.mem_cons_of_mem d mem)]
    rfl

/-- A key is read up to its colon. -/
lemma readKey_reads (first : Next s '\x22' t) (name : Reads readString t key u)
    (colon : Next u ':' v) : Reads readKey s key v := by
  obtain ⟨h₁, e₁⟩ := first
  obtain ⟨h₂, e₂⟩ := name
  obtain ⟨h₃, e₃⟩ := colon
  refine ⟨Nat.lt_trans h₃ (Nat.lt_trans h₂ h₁), ?_⟩
  simp only [readKey, e₁, e₂, e₃, if_true]
  rfl

/-- The last field is read up to the brace behind it. -/
lemma readFields_close (name : Reads readKey s key t) (content : Reads reader t value u)
    (close : Next u '\x7d' rest) : Reads (readFields reader) s [(key, value)] rest := by
  obtain ⟨h₁, e₁⟩ := name
  obtain ⟨h₂, e₂⟩ := content
  obtain ⟨h₃, e₃⟩ := close
  refine ⟨Nat.lt_trans h₃ (Nat.lt_trans h₂ h₁), ?_⟩
  rw [readFields]
  simp only [e₁, e₂, e₃, if_true]
  rfl

/-- A field with a comma behind it is read before the others. -/
lemma readFields_more (name : Reads readKey s key t) (content : Reads reader t value u)
    (comma : Next u ',' v) (more : Reads (readFields reader) v fields rest) :
    Reads (readFields reader) s ((key, value) :: fields) rest := by
  obtain ⟨h₁, e₁⟩ := name
  obtain ⟨h₂, e₂⟩ := content
  obtain ⟨h₃, e₃⟩ := comma
  obtain ⟨h₄, e₄⟩ := more
  have other : ¬ ',' = '\x7d' := by decide
  refine ⟨Nat.lt_trans h₄ (Nat.lt_trans h₃ (Nat.lt_trans h₂ h₁)), ?_⟩
  rw [readFields]
  simp only [e₁, e₂, e₃, e₄, if_neg other, if_true]
  rfl

/-- Fields are refused where the first value is. -/
lemma readFields_fails_here (name : Reads readKey s key t) (content : Fails reader t) :
    Fails (readFields reader) s := by
  obtain ⟨h₁, e₁⟩ := name
  obtain ⟨fault, e₂⟩ := content
  refine ⟨fault, ?_⟩
  rw [readFields]
  simp only [e₁, e₂]

/-- Fields are refused where those behind the first are. -/
lemma readFields_fails_behind (name : Reads readKey s key t) (content : Reads reader t value u)
    (comma : Next u ',' v) (more : Fails (readFields reader) v) :
    Fails (readFields reader) s := by
  obtain ⟨h₁, e₁⟩ := name
  obtain ⟨h₂, e₂⟩ := content
  obtain ⟨h₃, e₃⟩ := comma
  obtain ⟨fault, e₄⟩ := more
  have other : ¬ ',' = '\x7d' := by decide
  refine ⟨fault, ?_⟩
  rw [readFields]
  simp only [e₁, e₂, e₃, e₄, if_neg other, if_true]

/-- A field of an object: its key is read, and its value stands behind that. -/
lemma SpellsField.reads {Item : α → Text → Prop} (h : SpellsField Item (key, value) s) :
    ∃ t, Item value t ∧
      ∀ rest, Reads readKey (s ++ rest) key (t ++ rest) ∧ ∃ u, Next (s ++ rest) '\x22' u := by
  cases h with
  | @field g k g' t _ _ gap name gap' item =>
    refine ⟨t, item, fun rest => ?_⟩
    simp only [List.append_assoc, List.cons_append]
    have first : Next (g ++ '\x22' :: (k ++ (g' ++ ':' :: (t ++ rest)))) '\x22' _ :=
      next_gap gap (by decide)
    exact ⟨readKey_reads first name.reads (next_gap gap' (by decide)), _, first⟩

/-- The fields of an object are read if all of their values are, and else a fault is found. -/
lemma SpellsTail.decides {Item : α → Text → Prop} {good : α → Prop} (h : SpellsTail Item fields t)
    (items : ∀ value s rest, Item value s → Decides (good value) reader (s ++ rest) value rest)
    {field : Text × α} (first : SpellsField Item field s) :
    Decides (∀ x ∈ field :: fields, good x.2) (readFields reader) (s ++ (t ++ rest))
      (field :: fields) rest := by
  induction h generalizing field s with
  | @close g gap =>
    obtain ⟨key, value⟩ := field
    obtain ⟨u, item, name⟩ := first.reads
    obtain ⟨reads, fails⟩ := items value u ((g ++ ['\x7d']) ++ rest) item
    have close : Next ((g ++ ['\x7d']) ++ rest) '\x7d' rest := by
      rw [List.append_assoc]
      exact next_gap gap (by decide)
    rw [List.forall_mem_singleton]
    exact ⟨fun fine => readFields_close (name _).1 (reads fine) close,
      fun bad => readFields_fails_here (name _).1 (fails bad)⟩
  | @more g s' t next fields gap second _ ih =>
    obtain ⟨key, value⟩ := field
    obtain ⟨u, item, name⟩ := first.reads
    obtain ⟨reads, fails⟩ := items value u ((g ++ ',' :: (s' ++ t)) ++ rest) item
    have comma : Next ((g ++ ',' :: (s' ++ t)) ++ rest) ',' (s' ++ (t ++ rest)) := by
      rw [List.append_assoc, List.cons_append, List.append_assoc]
      exact next_gap gap (by decide)
    obtain ⟨readsMore, failsMore⟩ := ih second
    rw [List.forall_mem_cons]
    constructor
    · rintro ⟨fine, more⟩
      exact readFields_more (name _).1 (reads fine) comma (readsMore more)
    · intro bad
      by_cases fine : good value
      · exact readFields_fails_behind (name _).1 (reads fine) comma
          (failsMore fun more => bad ⟨fine, more⟩)
      · exact readFields_fails_here (name _).1 (fails fine)

/-- What does not close an object at once is read as its fields. -/
lemma readObject_of_next {c : Char} (next : Next s c t) (other : c ≠ '\x7d') :
    readObject reader s = readFields reader s := by
  obtain ⟨h, e⟩ := next
  simp only [readObject, e, if_neg other]

/-- An object is read if all of its values are, and else a fault is found. -/
lemma SpellsObject.decides {Item : α → Text → Prop} {good : α → Prop}
    (h : SpellsObject Item fields s)
    (items : ∀ value s rest, Item value s → Decides (good value) reader (s ++ rest) value rest) :
    Decides (∀ x ∈ fields, good x.2) (readObject reader) (s ++ rest) fields rest := by
  cases h with
  | @empty g gap =>
    have close : Next ((g ++ ['\x7d']) ++ rest) '\x7d' rest := by
      rw [List.append_assoc]
      exact next_gap gap (by decide)
    refine ⟨fun _ => ?_, fun bad => absurd (fun _ mem => absurd mem List.not_mem_nil) bad⟩
    obtain ⟨shorter, e⟩ := close
    refine ⟨shorter, ?_⟩
    simp only [readObject, e, if_true]
    rfl
  | @fields s t field fields first tail =>
    obtain ⟨_, _, name⟩ := first.reads
    obtain ⟨-, u, next⟩ := name (t ++ rest)
    have same : readObject reader (s ++ (t ++ rest)) = readFields reader (s ++ (t ++ rest)) :=
      readObject_of_next next (by decide)
    rw [List.append_assoc, Decides, Reads, Fails, same]
    exact tail.decides items first

end

section
variable {β : Type} {Item : β → Text → Prop} {f : α → β} {s : Text}

/-- The texts of a field whose value has been mapped are those of the field. -/
lemma SpellsField.of_map {field : Text × α} (h : SpellsField Item (field.1, f field.2) s) :
    SpellsField (fun value => Item (f value)) field s := by
  cases h with
  | field gap name gap' item => exact .field gap name gap' item

/-- Fields are spelt as their values are. -/
lemma SpellsTail.of_map {fields : List (Text × α)}
    (h : SpellsTail Item (fields.map fun field => (field.1, f field.2)) s) :
    SpellsTail (fun value => Item (f value)) fields s := by
  induction fields generalizing s with
  | nil =>
    cases h with
    | close gap => exact .close gap
  | cons field fields ih =>
    cases h with
    | more gap first tail => exact .more gap first.of_map (ih tail)

/-- The texts of an object whose values have been mapped are those of the object. -/
lemma SpellsObject.of_map {fields : List (Text × α)}
    (h : SpellsObject Item (fields.map fun field => (field.1, f field.2)) s) :
    SpellsObject (fun value => Item (f value)) fields s := by
  cases fields with
  | nil =>
    cases h with
    | empty gap => exact .empty gap
  | cons field fields =>
    cases h with
    | fields first tail => exact .fields first.of_map tail.of_map

end

/-! ## Reading a value -/

section
variable {v : Value} {s text rest : Text} {levels : Nat} {fields : List (Text × Value)}

/-- A value with a quotation mark is read as a string. -/
lemma readValue_string {t : Text} (quote : Next s '\x22' t) (reads : Reads readString t text rest) :
    Reads (readValue levels) s (.string text) rest := by
  obtain ⟨h₁, e₁⟩ := quote
  obtain ⟨h₂, e₂⟩ := reads
  have noList : ¬ '\x22' = '[' := by decide
  have noObject : ¬ '\x22' = '\x7b' := by decide
  refine ⟨Nat.lt_trans h₂ h₁, ?_⟩
  rw [readValue]
  simp only [e₁, if_neg noList, if_neg noObject, readScalar, if_true, e₂]
  rfl

/-- A value with a brace is read as an object, one level deeper. -/
lemma readValue_object {t : Text} (brace : Next s '\x7b' t) {accepted : Prop}
    (reads : Decides accepted (readObject (readValue levels)) t fields rest) :
    Decides accepted (readValue (levels + 1)) s (.object fields) rest := by
  obtain ⟨h₁, e₁⟩ := brace
  have noList : ¬ '\x7b' = '[' := by decide
  refine ⟨fun fine => ?_, fun bad => ?_⟩
  · obtain ⟨h₂, e₂⟩ := reads.1 fine
    refine ⟨Nat.lt_trans h₂ h₁, ?_⟩
    rw [readValue]
    simp only [e₁, if_neg noList, if_true, e₂]
    rfl
  · obtain ⟨fault, e₂⟩ := reads.2 bad
    refine ⟨fault, ?_⟩
    rw [readValue]
    simp only [e₁, if_neg noList, if_true, e₂]

/-- Where no level is left, an object is refused. -/
lemma readValue_object_fails {t : Text} (brace : Next s '\x7b' t) : Fails (readValue 0) s := by
  obtain ⟨h, e⟩ := brace
  have noList : ¬ '\x7b' = '[' := by decide
  refine ⟨.malformed, ?_⟩
  rw [readValue]
  simp only [e, if_neg noList, if_true]

/-- A string is read with any number of levels. -/
lemma decides_string {g : Text} (gap : IsGap g) (spells : SpellsString text s) :
    Decides (NestsWithin levels (.string text)) (readValue levels) ((g ++ '\x22' :: s) ++ rest)
      (.string text) rest := by
  have flat : NestsWithin levels (.string text) := by cases levels <;> trivial
  rw [List.append_assoc, List.cons_append]
  exact ⟨fun _ => readValue_string (next_gap gap (by decide)) spells.reads,
    fun deep => absurd flat deep⟩

/-- A text of a value is read as the value if the value does not nest too deep, and else a fault is
found. -/
lemma Spells.decides (levels : Nat) (h : Spells v s) :
    Decides (NestsWithin levels v) (readValue levels) (s ++ rest) v rest := by
  -- the levels that are left decide on each object, so the induction is on them
  induction levels generalizing v s rest with
  | zero =>
    cases h with
    | string gap spells => exact decides_string gap spells
    | object gap spells =>
      rw [List.append_assoc, List.cons_append]
      exact ⟨fun fine => fine.elim, fun _ => readValue_object_fails (next_gap gap (by decide))⟩
  | succ levels ih =>
    cases h with
    | string gap spells => exact decides_string gap spells
    | object gap spells =>
      rw [List.append_assoc, List.cons_append]
      exact readValue_object (next_gap gap (by decide)) (spells.decides fun _ _ _ => ih)

/-- A reader that decides on the front of a whole text, behind which only spaces stand, decides on
the whole text. -/
lemma readWhole_decides {reader : Reader α} {value : α} {g : Text} {accepted : Prop}
    (gap : IsGap g) (h : Decides accepted reader (s ++ g) value g) :
    (accepted → readWhole reader (s ++ g) = .ok value) ∧
      (¬ accepted → ∃ fault, readWhole reader (s ++ g) = .error fault) := by
  constructor
  · intro fine
    obtain ⟨shorter, e⟩ := h.1 fine
    simp only [readWhole, e, nextChar?_gap gap]
  · intro bad
    obtain ⟨fault, e⟩ := h.2 bad
    exact ⟨fault, by simp only [readWhole, e]⟩

/-! ## The written texts -/

/-- An empty text is a gap. -/
lemma isGap_nil : IsGap [] := nofun

/-- One space is a gap. -/
lemma isGap_singleton {c : Char} (space : isSpace c = true) : IsGap [c] :=
  List.forall_mem_singleton.2 space

/-- A blank is a gap. -/
lemma isGap_space : IsGap [' '] := isGap_singleton rfl

/-- A new line with its indentation is a gap. -/
lemma isGap_newline (level : Nat) : IsGap (newline level) := by
  intro c mem
  rcases List.mem_cons.1 mem with rfl | mem
  · rfl
  · rw [List.eq_of_mem_replicate mem]
    rfl

/-- What spells a value does so as a whole text. -/
lemma Spells.whole (h : Spells v s) : SpellsWhole v s :=
  ⟨s, [], s.append_nil.symm, h, isGap_nil⟩

/-- A gap can stand before a value. -/
lemma Spells.behind_gap {g : Text} (gap : IsGap g) (h : Spells v s) : Spells v (g ++ s) := by
  have longer : ∀ {g'}, IsGap g' → IsGap (g ++ g') := fun gap' c mem =>
    (List.mem_append.1 mem).elim (gap c) (gap' c)
  cases h with
  | string gap' spells =>
    rw [← List.append_assoc]
    exact .string (longer gap') spells
  | object gap' spells =>
    rw [← List.append_assoc]
    exact .object (longer gap') spells

/-- A string is spelt by its quoted form. -/
lemma spells_quoted (text : Text) : Spells (.string text) (quoted text) := by
  have string := Spells.string isGap_nil (spellsString_escaped text)
  rwa [List.nil_append] at string

/-- What is written for a field is one of its texts. -/
lemma spellsField_quoted {g g' : Text} {field : Text × Value} (gap : IsGap g) (gap' : IsGap g')
    (h : Spells field.2 s) :
    SpellsField Spells field (g ++ (quoted field.1 ++ ':' :: (g' ++ s))) :=
  .field gap (spellsString_escaped field.1) isGap_nil (h.behind_gap gap')

/-- The compact text of fields spells them up to the brace. -/
lemma spellsTail_compact (h : ∀ field ∈ fields, Spells field.2 field.2.compact) :
    SpellsTail Spells fields (Value.compactFields fields ++ ['\x7d']) := by
  induction fields with
  | nil => exact .close isGap_nil
  | cons field fields ih =>
    obtain ⟨here, behind⟩ := List.forall_mem_cons.1 h
    have tail := SpellsTail.more isGap_nil (spellsField_quoted isGap_nil isGap_nil here) (ih behind)
    simpa only [Value.compactFields, List.append_assoc, List.cons_append, List.nil_append]
      using tail

/-- The compact text of an object is one of its texts. -/
lemma spells_compact (h : ∀ field ∈ fields, Spells field.2 field.2.compact) :
    Spells (.object fields) (Value.compact (.object fields)) := by
  cases fields with
  | nil => exact .object isGap_nil (.empty isGap_nil)
  | cons field fields =>
    obtain ⟨here, behind⟩ := List.forall_mem_cons.1 h
    have object := SpellsObject.fields (spellsField_quoted isGap_nil isGap_nil here)
      (spellsTail_compact behind)
    simpa only [Value.compact, List.append_assoc, List.cons_append, List.nil_append]
      using Spells.object isGap_nil object

/-- The indented text of fields spells them up to the brace. -/
lemma spellsTail_pretty {level : Nat}
    (h : ∀ field ∈ fields, Spells field.2 (field.2.prettyAt (level + 1))) :
    SpellsTail Spells fields
      (Value.prettyFields (level + 1) fields ++ (newline level ++ ['\x7d'])) := by
  induction fields with
  | nil => exact .close (isGap_newline level)
  | cons field fields ih =>
    obtain ⟨here, behind⟩ := List.forall_mem_cons.1 h
    have tail := SpellsTail.more isGap_nil
      (spellsField_quoted (isGap_newline (level + 1)) isGap_space here) (ih behind)
    simpa only [Value.prettyFields, List.append_assoc, List.cons_append, List.nil_append] using tail

/-- The text of an object on lines of its own is one of its texts. -/
lemma spells_prettyAt {level : Nat}
    (h : ∀ field ∈ fields, Spells field.2 (field.2.prettyAt (level + 1))) :
    Spells (.object fields) (Value.prettyAt level (.object fields)) := by
  cases fields with
  | nil => exact .object isGap_nil (.empty isGap_nil)
  | cons field fields =>
    obtain ⟨here, behind⟩ := List.forall_mem_cons.1 h
    have object := SpellsObject.fields
      (spellsField_quoted (isGap_newline (level + 1)) isGap_space here) (spellsTail_pretty behind)
    simpa only [Value.prettyAt, List.append_assoc, List.cons_append, List.nil_append]
      using Spells.object isGap_nil object

end

end Sentential.Json
