import Mathlib.Data.List.Basic
import Mathlib.Tactic.Lemma
import Sentential.Proofs.Settings.Fields

/-!
# Where settings come from

Each field of the settings has a source: the last value that overrides it, or else the last file
that sets it, or else the built-in value (`Field.source?`). What a file sets is told by the tree
that it makes on its own (`fileTree`). Along the layers, what is found of a field shows what its
source gave, if there is something (`Stands`): a file or a value that does not set it leaves what
was there or takes it away with the group around it. What is missing in the end cannot be read, so
whatever is loaded comes from its source (`source_of_load`), in whatever order tables are listed.
Empty tables set nothing, also where they override (`load_empty_table`).
-/

namespace Sentential.Settings

open Setting

/-! ## Sources -/

/-- The entries of a file, if it exists and holds text. -/
def fileEntries (files : Files) (name : Text) : List (Text × Setting) :=
  match findFile files name with
  | some (.text s) => (Toml.read? s).getD []
  | _ => []

/-- The tree that a file makes on its own. -/
def fileTree [Hashing] (files : Files) (name : Text) : Setting :=
  mergeEntries (.table []) (fileEntries files name)

/-- The place for which a key of a file stands. -/
def entryPlace (key : Text) : List Turn :=
  (readPlace? (Text.lower key)).getD [.key (Text.lower key)]

/-- Whether a file sets lists as a whole: no key of it writes the place of an item. -/
def KeepsLists (files : Files) (name : Text) : Prop :=
  ∀ entry ∈ fileEntries files name, ∀ turn ∈ entryPlace entry.1, turn.isKey = true

instance (files : Files) (name : Text) : Decidable (KeepsLists files name) :=
  inferInstanceAs (Decidable (∀ entry ∈ fileEntries files name,
    ∀ turn ∈ entryPlace entry.1, turn.isKey = true))

/-- What the last of some layers that gives something gives. -/
def last? (given : Layer → Option Setting) (layers : List Layer) : Option Setting :=
  layers.reverse.findSome? given

/-- A later layer goes before an earlier one. -/
lemma last?_cons (given : Layer → Option Setting) (layer : Layer) (more : List Layer) :
    last? given (layer :: more) = (last? given more).or (given layer) := by
  rw [last?, List.reverse_cons, List.findSome?_append, List.findSome?_singleton, last?]

namespace Field

/-- The value with which a layer overrides a field. -/
def overriding? (field : Field) : Layer → Option Setting
  | .override place value => if Text.lower place = field.place then some value else none
  | .file _ _ => none

/-- The value to which a file among the layers sets a field. -/
def filed? [Hashing] (files : Files) (field : Field) : Layer → Option Setting
  | .file name _ => field.value? (fileTree files name)
  | .override _ _ => none

/-- Where a field comes from: the last value that overrides it, the last file that sets it or the
built-in value. -/
def source? [Hashing] (files : Files) (layers : List Layer) (field : Field) : Option Setting :=
  ((last? field.overriding? layers).bind given?).or
    ((last? (field.filed? files) layers).or (field.value? builtIn))

end Field

/-! ## Along the files -/

/-- Whether what is found of a field, if there is something, shows what its source gave. -/
def Stands (source found : Option Setting) : Prop :=
  ∀ value, found = some value → ∃ given, source = some given ∧ Shows given value

/-- What nothing has touched is its own source. -/
lemma stands_self (value : Option Setting) : Stands value value :=
  fun found e => ⟨found, e, .same⟩

/-- Behind some values, the source is what they gave, or else the one before. -/
lemma Stands.reveals {source own base full : Option Setting} (stands : Stands source base)
    (reveals : Reveals own base full) : Stands (own.or source) full := by
  intro value e
  cases own with
  | some given =>
    obtain ⟨found, e', shows⟩ := reveals
    rw [e] at e'
    cases e'
    exact ⟨given, rfl, shows⟩
  | none =>
    rcases reveals with same | none
    · exact stands value (same ▸ e)
    · rw [none] at e
      cases e

/-- Steps that succeed one behind the other. -/
lemma bind_eq_ok {ε α β : Type} {step : Except ε α} {next : α → Except ε β} {out : β}
    (done : (step >>= next) = .ok out) : ∃ a, step = .ok a ∧ next a = .ok out := by
  cases step with
  | error cause => cases done
  | ok a => exact ⟨a, rfl, done⟩

/-- Entries make the same of a tree as over an empty one. -/
lemma over_foldl {own base full : Setting} (laid : Over (some own) (some base) (some full))
    {entries : List (Text × Setting)}
    (keys : ∀ entry ∈ entries, ∀ turn ∈ entryPlace entry.1, turn.isKey = true) :
    Over (some (entries.foldl mergeEntry own)) (some base)
      (some (entries.foldl mergeEntry full)) := by
  induction entries generalizing own full with
  | nil => exact laid
  | cons entry more ih =>
    obtain ⟨first, rest⟩ := List.forall_mem_cons.1 keys
    exact ih (laid.setAt entry.2 first) rest

section
variable [Hashing]

/-- Hashing the tables in a table leaves its keys. -/
lemma keys_hashedEntries (entries : List (Text × Setting)) :
    Entries.keys (hashedEntries entries) = Entries.keys entries := by
  induction entries with
  | nil => rfl
  | cons entry more ih => exact congrArg (entry.1 :: ·) ih

/-- The keys that are listed are those that were written. -/
lemma key_mem_of_mem_listed {entries : List (Text × Setting)} {entry : Text × Setting}
    (mem : entry ∈ Hashing.listed (hashedEntries entries)) : entry.1 ∈ Entries.keys entries := by
  rw [← keys_hashedEntries]
  exact List.mem_map_of_mem ((Hashing.perm _).mem_iff.1 mem)

/-- A file without entries changes nothing. -/
lemma mergeEntries_nil (root : Setting) : mergeEntries root [] = root := by
  have none : Hashing.listed ([] : List (Text × Setting)) = [] := (Hashing.perm []).eq_nil
  rw [mergeEntries, hashedEntries, none, List.foldl_nil]

variable {files : Files} {layers : List Layer} {source : Option Setting} {root root' : Setting}
  {field : Field}

/-- A file that is merged leaves its entries, and one that is passed over has none. -/
lemma mergeFile_eq_ok {name : Text} {required : Bool}
    (out : mergeFile files name required root = .ok root') :
    root' = mergeEntries root (fileEntries files name) := by
  rw [mergeFile] at out
  rw [fileEntries]
  have passed : ∀ cause : SettingsError,
      (if required then .error cause else .ok root) = Except.ok root' →
        root' = mergeEntries root [] := by
    intro cause out
    rw [mergeEntries_nil]
    split at out
    · cases out
    · exact (Except.ok.inj out).symm
  cases found : findFile files name with
  | none =>
    rw [found] at out
    exact passed _ out
  | some content =>
    rw [found] at out
    cases content with
    | binary => exact passed _ out
    | text s =>
      simp only at out
      cases read : Toml.read? s with
      | none =>
        rw [read] at out
        cases out
      | some entries =>
        rw [read] at out
        simp only [read]
        exact (Except.ok.inj out).symm

/-- A file leaves each field as it sets it on its own, or as it was, or takes it away. -/
lemma reveals_file {name : Text} {required : Bool} (whole : KeepsLists files name)
    (out : mergeFile files name required root = .ok root') (field : Field) :
    Reveals (field.value? (fileTree files name)) (field.value? root) (field.value? root') := by
  have keys : ∀ entry ∈ Hashing.listed (hashedEntries (fileEntries files name)),
      ∀ turn ∈ entryPlace entry.1, turn.isKey = true := by
    intro entry mem
    obtain ⟨written, memW, same⟩ := List.mem_map.1 (key_mem_of_mem_listed mem)
    exact same ▸ whole written memW
  rw [mergeFile_eq_ok out]
  exact reveals_value? (over_foldl .empty keys) field

/-- Behind the files among some layers, the source is the last file that sets the field. -/
lemma stands_files
    (whole : ∀ name required, .file name required ∈ layers → KeepsLists files name)
    (out : mergeFiles files root layers = .ok root') (stands : Stands source (field.value? root)) :
    Stands ((last? (field.filed? files) layers).or source) (field.value? root') := by
  induction layers generalizing root source with
  | nil =>
    cases out
    exact stands
  | cons layer more ih =>
    have whole' : ∀ name required, .file name required ∈ more → KeepsLists files name :=
      fun name required mem => whole name required (List.mem_cons_of_mem _ mem)
    rw [last?_cons, Option.or_assoc]
    cases layer with
    | override place value => exact ih whole' out stands
    | file name required =>
      rw [mergeFiles] at out
      obtain ⟨next, first, out⟩ := bind_eq_ok out
      have reveals := reveals_file (whole name required List.mem_cons_self) first field
      exact ih whole' out (stands.reveals reveals)

end

/-! ## Along the single values -/

/-- Whether single values among some layers are for fields. -/
def OverridesFields (layers : List Layer) : Prop :=
  ∀ place value, .override place value ∈ layers → ∃ field : Field, Text.lower place = field.place

section
variable {layers : List Layer} {given : List (List Turn × Setting)} {source : Option Setting}
  {root : Setting} {field : Field}

/-- The later layers have their values for fields too. -/
lemma OverridesFields.tail {layer : Layer} (fields : OverridesFields (layer :: layers)) :
    OverridesFields layers :=
  fun place value mem => fields place value (List.mem_cons_of_mem layer mem)

/-- A value is given if its place can be read and no later one has the same place. -/
lemma overrides_cons_eq_ok {place : Text} {value : Setting}
    (done : overrides (.override place value :: layers) = .ok given) :
    ∃ turns later, readPlace? (Text.lower place) = some turns ∧ overrides layers = .ok later ∧
      given = if turns ∈ Entries.keys later then later else (turns, value) :: later := by
  rw [overrides] at done
  cases read : readPlace? (Text.lower place) with
  | none =>
    rw [read] at done
    cases done
  | some turns =>
    rw [read] at done
    obtain ⟨later, behind, done⟩ := bind_eq_ok done
    exact ⟨turns, later, rfl, behind, (Except.ok.inj done).symm⟩

/-- No two values are given for one place. -/
lemma nodup_overrides (done : overrides layers = .ok given) : (Entries.keys given).Nodup := by
  induction layers generalizing given with
  | nil =>
    cases done
    exact List.nodup_nil
  | cons layer more ih =>
    cases layer with
    | file name required => exact ih done
    | override place value =>
      obtain ⟨turns, later, -, behind, rfl⟩ := overrides_cons_eq_ok done
      split
      · exact ih behind
      · rename_i fresh
        exact List.nodup_cons.2 ⟨fresh, ih behind⟩

/-- The values that are given are for fields. -/
lemma exists_field_of_mem_overrides (fields : OverridesFields layers)
    (done : overrides layers = .ok given) :
    ∀ entry ∈ given, ∃ field : Field, entry.1 = field.turns := by
  induction layers generalizing given with
  | nil =>
    cases done
    exact fun entry mem => absurd mem List.not_mem_nil
  | cons layer more ih =>
    cases layer with
    | file name required => exact ih fields.tail done
    | override place value =>
      obtain ⟨turns, later, read, behind, rfl⟩ := overrides_cons_eq_ok done
      obtain ⟨field, same⟩ := fields place value List.mem_cons_self
      rw [same, field.readPlace?_place] at read
      split
      · exact ih fields.tail behind
      · exact List.forall_mem_cons.2 ⟨⟨field, (Option.some.inj read).symm⟩, ih fields.tail behind⟩

/-- A value that a later one replaces is not found. -/
lemma lookup_given (turns turns' : List Turn) (value : Setting)
    (later : List (List Turn × Setting)) :
    (if turns' ∈ Entries.keys later then later else (turns', value) :: later).lookup turns
      = (later.lookup turns).or (if turns' = turns then some value else none) := by
  by_cases same : turns' = turns
  · subst same
    rw [if_pos rfl]
    have absent_iff : later.lookup turns' = none ↔ turns' ∉ Entries.keys later :=
      Entries.lookup_eq_none_iff
    cases found : later.lookup turns' with
    | none => rw [if_neg (absent_iff.1 found), Entries.lookup_cons, if_pos rfl, Option.none_or]
    | some value' =>
      have mem : turns' ∈ Entries.keys later := by
        by_contra absent
        rw [absent_iff.2 absent] at found
        cases found
      rw [if_pos mem, found, Option.some_or]
  · rw [if_neg same, Option.or_none]
    split
    · rfl
    · rw [Entries.lookup_cons, if_neg (Ne.symm same)]

/-- A field is given the last value that overrides it. -/
lemma lookup_overrides (fields : OverridesFields layers) (done : overrides layers = .ok given)
    (field : Field) : given.lookup field.turns = last? field.overriding? layers := by
  induction layers generalizing given with
  | nil =>
    cases done
    rfl
  | cons layer more ih =>
    rw [last?_cons]
    cases layer with
    | file name required =>
      rw [Field.overriding?, Option.or_none]
      exact ih fields.tail done
    | override place value =>
      obtain ⟨turns, later, read, behind, rfl⟩ := overrides_cons_eq_ok done
      obtain ⟨field', same⟩ := fields place value List.mem_cons_self
      rw [same, field'.readPlace?_place] at read
      cases read
      have turns_iff : field'.turns = field.turns ↔ field'.place = field.place :=
        ⟨fun e => congrArg Field.place (Field.turns_inj e),
          fun e => congrArg Field.turns (Field.place_inj e)⟩
      rw [lookup_given, ih fields.tail behind, Field.overriding?, same]
      simp only [turns_iff]

/-- Behind single values, each for a field of its own, the source is the one for the field. -/
lemma stands_foldl {listed : List (List Turn × Setting)} (distinct : (Entries.keys listed).Nodup)
    (fields : ∀ entry ∈ listed, ∃ field : Field, entry.1 = field.turns)
    (stands : Stands source (field.value? root)) :
    Stands (((listed.lookup field.turns).bind given?).or source)
      (field.value? (listed.foldl (fun root entry => setAt entry.2 entry.1 root) root)) := by
  induction listed generalizing root source with
  | nil => exact stands
  | cons entry more ih =>
    obtain ⟨turns, value⟩ := entry
    obtain ⟨⟨field', rfl⟩, fields'⟩ := List.forall_mem_cons.1 fields
    obtain ⟨fresh, distinct⟩ := List.nodup_cons.1 distinct
    have stands := ih distinct fields' (stands.reveals (field.reveals_setAt field' value root))
    rw [Entries.lookup_cons]
    by_cases e : field' = field
    · subst e
      rw [if_pos rfl, Entries.lookup_eq_none_iff.2 fresh] at stands
      rw [if_pos rfl]
      exact stands
    · rw [if_neg e, Option.none_or] at stands
      rw [if_neg fun e' => e (Field.turns_inj e').symm]
      exact stands

/-- Behind the single values among some layers, the source is the last one for the field. -/
lemma stands_override [Hashing] (fields : OverridesFields layers)
    (done : overrides layers = .ok given) (stands : Stands source (field.value? root)) :
    Stands (((last? field.overriding? layers).bind given?).or source)
      (field.value? (override root given)) := by
  have perm := Hashing.perm given
  have distinct : (Entries.keys (Hashing.listed given)).Nodup :=
    (perm.map Prod.fst).nodup_iff.2 (nodup_overrides done)
  rw [← lookup_overrides fields done, ← Entries.lookup_eq_of_perm perm distinct]
  exact stands_foldl distinct
    (fun entry mem => exists_field_of_mem_overrides fields done entry (perm.mem_iff.1 mem)) stands

end

/-! ## What is loaded -/

section
variable [Hashing] {files : Files} {layers : List Layer} {settings : Settings}

/-- Settings are loaded in three steps. -/
lemma load_eq_ok (loaded : load files layers = .ok settings) :
    ∃ given merged, overrides layers = .ok given ∧ mergeFiles files builtIn layers = .ok merged ∧
      ofSetting? (override merged given) = some settings := by
  rw [load] at loaded
  obtain ⟨given, done, loaded⟩ := bind_eq_ok loaded
  obtain ⟨merged, filed, loaded⟩ := bind_eq_ok loaded
  refine ⟨given, merged, done, filed, ?_⟩
  split at loaded
  · rename_i read
    cases loaded
    exact read
  · cases loaded

/-- Whatever is found of a field in the end shows what its source gave. -/
lemma stands_source {given : List (List Turn × Setting)} {merged : Setting}
    (whole : ∀ name required, .file name required ∈ layers → KeepsLists files name)
    (fields : OverridesFields layers) (done : overrides layers = .ok given)
    (filed : mergeFiles files builtIn layers = .ok merged) (field : Field) :
    Stands (field.source? files layers) (field.value? (override merged given)) :=
  stands_override fields done (stands_files whole filed (stands_self _))

/-- A file that is not required and does not exist is passed over among the files. -/
lemma mergeFiles_missing {name : Text} (missing : findFile files name = none)
    (root : Setting) (before after : List Layer) :
    mergeFiles files root (before ++ .file name false :: after)
      = mergeFiles files root (before ++ after) := by
  induction before generalizing root with
  | nil =>
    rw [List.nil_append, mergeFiles, mergeFile, missing]
    rfl
  | cons layer before ih =>
    cases layer with
    | override place value => exact ih root
    | file first required => simp only [List.cons_append, mergeFiles, ih]

omit [Hashing] in
/-- Files are passed over where single values are collected. -/
lemma overrides_file (name : Text) (required : Bool) (before after : List Layer) :
    overrides (before ++ .file name required :: after) = overrides (before ++ after) := by
  induction before with
  | nil => rfl
  | cons layer before ih =>
    cases layer with
    | file first required => exact ih
    | override place value => simp only [List.cons_append, overrides, ih]

/-- A file that is not required and does not exist changes nothing. -/
lemma load_missing {name : Text} (missing : findFile files name = none)
    (before after : List Layer) :
    load files (before ++ .file name false :: after) = load files (before ++ after) := by
  simp only [load, mergeFiles_missing missing, overrides_file]

end

/-- What is loaded comes from its sources: the two formats from the last value that overrides them,
or else from the last file that sets them, or else from the built-in values, and so does the list of
the dictionary, as a whole. Without a file that is not required and does not exist, the same
settings are loaded. An empty table gives nothing, and no file writes the place of an item. -/
theorem source_of_load [Hashing] {files : Files} {layers : List Layer} {settings : Settings}
    (whole : ∀ name required, .file name required ∈ layers → KeepsLists files name)
    (fields : OverridesFields layers) (loaded : load files layers = .ok settings) :
    (∃ value, Field.format.source? files layers = some value ∧
        (choice? value).bind FormulaFormat.ofName? = some settings.format) ∧
      (∃ value, Field.dictionaryFormat.source? files layers = some value ∧
        (choice? value).bind DictionaryFormat.ofName? = some settings.dictionaryFormat) ∧
      (∃ items, Field.initial.source? files layers = some (.list items) ∧
        items.mapM entry? = some settings.initial) ∧
      ∀ before name after, layers = before ++ .file name false :: after →
        findFile files name = none → load files (before ++ after) = .ok settings := by
  obtain ⟨given, merged, done, filed, read⟩ := load_eq_ok loaded
  have stands := stands_source whole fields done filed
  obtain ⟨⟨format, found, known⟩, ⟨dictionaryFormat, found', known'⟩, items, found'', listed⟩ :=
    ofSetting?_eq_some read
  refine ⟨?_, ?_, ?_, ?_⟩
  · obtain ⟨given, source, shows⟩ := stands .format format found
    obtain ⟨name, chosen, form⟩ := Option.bind_eq_some_iff.1 known
    exact ⟨given, source, by rw [shows.choice? chosen]; exact form⟩
  · obtain ⟨given, source, shows⟩ := stands .dictionaryFormat dictionaryFormat found'
    obtain ⟨name, chosen, form⟩ := Option.bind_eq_some_iff.1 known'
    exact ⟨given, source, by rw [shows.choice? chosen]; exact form⟩
  · obtain ⟨given, source, shows⟩ := stands .initial (.list items) found''
    exact ⟨items, shows.eq_list ▸ source, listed⟩
  · rintro before name after rfl missing
    rw [← load_missing missing, loaded]

/-- A file that takes a group away, one that brings it back with a bad value, a missing one, and
values that override a field before and behind them. -/
theorem source_of_load_of_restored_group :
    let _ : Hashing := .asWritten
    let files : Files := fun name =>
      if name = "bare.toml".toList then some (.text "output = 'none'".toList)
      else if name = "team.toml".toList then
        some (.text ("[output]\nformat = 'latex'\ndictionary_format = 'yaml'\n\n".toList
          ++ "[[dictionary.default]]\nlabel = 'P'\nphrase = 'faz frio'".toList))
      else none
    let front : List Layer :=
      [ .override "output.format".toList (.text "json".toList),
        .file "bare.toml".toList true,
        .file "team".toList true ]
    let back : List Layer := [.override "Output.Format".toList (.text "natural".toList)]
    let layers := front ++ .file "own.toml".toList false :: back
    let settings : Settings := ⟨.natural, .yaml, [("P".toList, "faz frio".toList)]⟩
    (∀ name required, .file name required ∈ layers → KeepsLists files name) ∧
      OverridesFields layers ∧ load files layers = .ok settings ∧
      (∃ value, Field.format.source? files layers = some value ∧
        (choice? value).bind FormulaFormat.ofName? = some .natural) ∧
      (∃ value, Field.dictionaryFormat.source? files layers = some value ∧
        (choice? value).bind DictionaryFormat.ofName? = some .yaml) ∧
      (∃ items, Field.initial.source? files layers = some (.list items) ∧
        items.mapM entry? = some [("P".toList, "faz frio".toList)]) ∧
      load files (front ++ back) = .ok settings := by
  intro _ files front back layers settings
  have whole : ∀ name required, .file name required ∈ layers → KeepsLists files name := by
    intro name required mem
    simp only [layers, front, back, List.cons_append, List.nil_append, List.mem_cons,
      List.not_mem_nil, Layer.file.injEq, reduceCtorEq, false_or, or_false] at mem
    rcases mem with ⟨rfl, rfl⟩ | ⟨rfl, rfl⟩ | ⟨rfl, rfl⟩ <;> decide +kernel
  have fields : OverridesFields layers := by
    intro place value mem
    simp only [layers, front, back, List.cons_append, List.nil_append, List.mem_cons,
      List.not_mem_nil, Layer.override.injEq, reduceCtorEq, false_or, or_false] at mem
    rcases mem with ⟨rfl, -⟩ | ⟨rfl, -⟩ <;> exact ⟨.format, by decide +kernel⟩
  have loaded : load files layers = .ok settings := by decide +kernel
  obtain ⟨format, dictionaryFormat, initial, missing⟩ := source_of_load whole fields loaded
  exact ⟨whole, fields, loaded, format, dictionaryFormat, initial,
    missing front _ back rfl (by decide +kernel)⟩

/-- An empty table that overrides a field leaves it to the files, also where an earlier value for it
was good, and an empty table in a file leaves it to the earlier files. A key that writes the place
of an item changes one item of the built-in list. -/
theorem load_empty_table :
    let _ : Hashing := .asWritten
    let files : Files := fun name =>
      if name = "a.toml".toList then some (.text "[output]\nformat = 'natural'".toList)
      else if name = "b.toml".toList then some (.text "[output]\nformat = \x7b\x7d".toList)
      else if name = "c.toml".toList then
        some (.text "'dictionary.default[0].phrase' = 'neva'".toList)
      else none
    let json : Layer := .override "output.format".toList (.text "json".toList)
    let empty : Layer := .override "output.format".toList (.table [])
    let formatOf := fun layers => (load files layers).map Settings.format
    choice? (.table []) = none ∧
      last? Field.format.overriding? [.file "a.toml".toList true, json, empty]
        = some (.table []) ∧
      formatOf [.file "a.toml".toList true, json, empty] = .ok .natural ∧
      formatOf [json, empty] = .ok .symbolic ∧
      formatOf [.file "a.toml".toList true, .file "b.toml".toList true] = .ok .natural ∧
      (load files [.file "c.toml".toList true]).map Settings.initial
        = .ok [("A".toList, "neva".toList), ("B".toList, "levarei guarda-chuva".toList),
          ("C".toList, "a rua está molhada".toList)] := by
  intro _ files json empty formatOf
  have gives : choice? (.table []) = none := by decide
  have last : last? Field.format.overriding? [.file "a.toml".toList true, json, empty]
      = some (.table []) := by
    rfl
  refine ⟨gives, last, ?_, ?_, ?_, ?_⟩ <;> decide +kernel

end Sentential.Settings
