import Mathlib.Data.List.Permutation
import OutboxPublisher.Interaction.Loop
import OutboxPublisher.Derive.Expand

/-!
# What the loops over attributes accept

The macro reads entries in loops over attributes and over fields, with state that is shared between
the passes. Each loop is described here by the entries alone, in whatever attributes they stand: the
struct's are one `kind` and one `aggregate` (`parseStructAttrs_eq_ok_iff`), the fields' at most one
`aggregate_id` each (`foldlM_findInField_iff`), and one in all where one field is found
(`foldlM_findInField_singleton_iff`).
-/

namespace OutboxPublisher.Derive

open Interaction

/-! ## Event attributes and their entries -/

/-- The attribute is in list form. -/
def Attribute.ListForm (attr : Attribute) : Prop :=
  ∃ path entries, attr.content = .list path entries

/-- The entries of an attribute in list form. -/
def Attribute.entries (attr : Attribute) : List Entry :=
  match attr.content with
  | .list _ entries => entries
  | .path _ | .nameValue _ _ => []

/-- The `event` attributes. -/
def eventAttrs (attrs : List Attribute) : List Attribute :=
  attrs.filter (·.isEvent)

/-- The entries of all `event` attributes, one attribute after the other. -/
def eventEntries (attrs : List Attribute) : List Entry :=
  (eventAttrs attrs).flatMap (·.entries)

/-- The entry `key = "v"`. -/
def Entry.keyValue (key : Ident) (v : String) : Entry :=
  .nested (.ofIdent key) [.eq, .lit (.str v)]

/-- The entry `aggregate_id`. -/
def Entry.aggregateId : Entry :=
  .nested (.ofIdent "aggregate_id") []

/-- A path is an identifier alone if it is that identifier's path. -/
theorem Path.isIdent_iff {path : Path} {ident : Ident} :
    path.isIdent ident = true ↔ path = .ofIdent ident := by
  obtain ⟨colon, segments⟩ := path
  match segments with
  | [] => simp [isIdent, ofIdent]
  | [⟨i, arguments⟩] => cases arguments <;> simp [isIdent, ofIdent, PathArguments.isNone]
  | _ :: _ :: _ => simp [isIdent, ofIdent]

section
variable {σ : Type} {logic : σ → ParseNestedMeta → Except Error (σ × List Token)} {s s' : σ}

/-- An entry is read if the closure accepts it and takes all of its tokens. -/
theorem parseEntry_eq_ok_iff {entry : Entry} :
    parseEntry logic s entry = .ok s' ↔
      ∃ path input, entry = .nested path input ∧ logic s ⟨path, input⟩ = .ok (s', []) := by
  cases entry with
  | unexpected text => simp [parseEntry]
  | nested path input =>
    rw [parseEntry, bind_eq_ok_iff]
    constructor
    · rintro ⟨⟨t, rest⟩, hlogic, h⟩
      cases rest with
      | nil => exact ⟨path, input, rfl, Except.ok.inj h ▸ hlogic⟩
      | cons token rest => exact nomatch h
    · rintro ⟨_, _, heq, hlogic⟩
      cases heq
      exact ⟨_, hlogic, rfl⟩

/-- An attribute is read if it is in list form and its entries are. -/
theorem parseNestedMeta_eq_ok_iff {attr : Attribute} :
    parseNestedMeta logic attr s = .ok s' ↔
      attr.ListForm ∧ attr.entries.foldlM (parseEntry logic) s = .ok s' := by
  unfold parseNestedMeta Attribute.ListForm Attribute.entries
  cases attr.content with
  | list path entries => simp
  | path path => simp
  | nameValue path value => simp

end

/-! ## The struct's attributes -/

/-- A value is what follows an `=`. -/
theorem ParseNestedMeta.value_eq_ok_iff {entry : ParseNestedMeta} {rest : List Token} :
    entry.value = .ok rest ↔ entry.input = .eq :: rest := by
  unfold value
  split
  · next h => simp [h]
  · next h =>
    constructor
    · exact (nomatch ·)
    · intro heq
      exact absurd heq (h rest)

/-- A literal is read where one comes next. -/
theorem parseLit_eq_ok_iff {input rest : List Token} {lit : Lit} :
    parseLit input = .ok (lit, rest) ↔ input = .lit lit :: rest := by
  unfold parseLit
  split
  · simp
  · next h =>
    constructor
    · exact (nomatch ·)
    · intro heq
      exact absurd heq (h lit rest)

/-- A required key is one that was set. -/
theorem okOrElse_eq_ok_iff {α : Type} {o : Option α} {err : Error} {a : α} :
    okOrElse o err = .ok a ↔ o = some a := by
  cases o with
  | none => exact ⟨(nomatch ·), (nomatch ·)⟩
  | some a' => simp [okOrElse]

/-- A key's entry fills its slot for the first time, with a string literal that is not empty. -/
theorem parseKey_eq_ok_iff {key : String} {slot : Option String} {set : String → StructAttrs}
    {entry : ParseNestedMeta} {found' : StructAttrs} {rest : List Token} :
    parseKey key slot set entry = .ok (found', rest) ↔
      ∃ v, entry.input = .eq :: .lit (.str v) :: rest ∧ v ≠ "" ∧ slot = none ∧ found' = set v := by
  constructor
  · intro h
    obtain ⟨value, hvalue, h⟩ := bind_eq_ok_iff.1 h
    obtain ⟨⟨lit, rest'⟩, hlit, h⟩ := bind_eq_ok_iff.1 h
    cases lit with
    | other text => exact nomatch h
    | str v =>
      dsimp only at h
      split at h
      · exact nomatch h
      · next hslot =>
        split at h
        · exact nomatch h
        · next hv =>
          obtain ⟨rfl, rfl⟩ : set v = found' ∧ rest' = rest := by simpa using h
          refine ⟨v, ?_, by simpa using hv, by simpa using hslot, rfl⟩
          rw [← parseLit_eq_ok_iff.1 hlit]
          exact ParseNestedMeta.value_eq_ok_iff.1 hvalue
  · rintro ⟨v, hinput, hv, rfl, rfl⟩
    have hemp : ¬ v.isEmpty = true := by simpa using hv
    refine bind_eq_ok_iff.2 ⟨_, ParseNestedMeta.value_eq_ok_iff.2 hinput, ?_⟩
    refine bind_eq_ok_iff.2 ⟨_, parseLit_eq_ok_iff.2 rfl, ?_⟩
    exact if_neg hemp

/-- What one entry of the struct does: it sets a key that was not set. -/
theorem parseEntry_structLogic_iff {found found' : StructAttrs} {entry : Entry} :
    parseEntry structLogic found entry = .ok found' ↔
      (∃ v, entry = .keyValue "kind" v ∧ v ≠ "" ∧ found.kind = none ∧
        found' = { found with kind := some v }) ∨
      ∃ v, entry = .keyValue "aggregate" v ∧ v ≠ "" ∧ found.aggregate = none ∧
        found' = { found with aggregate := some v } := by
  rw [parseEntry_eq_ok_iff]
  constructor
  · rintro ⟨path, input, rfl, h⟩
    unfold structLogic at h
    split at h
    · next hpath =>
      obtain rfl : path = .ofIdent "kind" := Path.isIdent_iff.1 hpath
      obtain ⟨v, hinput, hset⟩ := parseKey_eq_ok_iff.1 h
      exact .inl ⟨v, congrArg _ hinput, hset⟩
    · split at h
      · next hpath =>
        obtain rfl : path = .ofIdent "aggregate" := Path.isIdent_iff.1 hpath
        obtain ⟨v, hinput, hset⟩ := parseKey_eq_ok_iff.1 h
        exact .inr ⟨v, congrArg _ hinput, hset⟩
      · split at h <;> exact nomatch h
  · rintro (⟨v, rfl, hset⟩ | ⟨v, rfl, hset⟩)
    · have hkind : (Path.ofIdent "kind").isIdent "kind" = true := Path.isIdent_iff.2 rfl
      refine ⟨_, _, rfl, ?_⟩
      rw [structLogic, if_pos hkind]
      exact parseKey_eq_ok_iff.2 ⟨v, rfl, hset⟩
    · have hkind : ¬ (Path.ofIdent "aggregate").isIdent "kind" = true := by decide
      have haggregate : (Path.ofIdent "aggregate").isIdent "aggregate" = true :=
        Path.isIdent_iff.2 rfl
      refine ⟨_, _, rfl, ?_⟩
      rw [structLogic, if_neg hkind, if_pos haggregate]
      exact parseKey_eq_ok_iff.2 ⟨v, rfl, hset⟩

/-- The entries that stand for the keys read so far. -/
def StructAttrs.entries (found : StructAttrs) : List Entry :=
  found.kind.toList.map (.keyValue "kind") ++ found.aggregate.toList.map (.keyValue "aggregate")

/-- The keys read so far are not empty. -/
def StructAttrs.NonEmpty (found : StructAttrs) : Prop :=
  found.kind ≠ some "" ∧ found.aggregate ≠ some ""

/-- One entry keeps the keys from being empty, and is added to what they stand for. -/
theorem parseEntry_structLogic_inv {found found' : StructAttrs} {entry : Entry}
    (h : parseEntry structLogic found entry = .ok found') (hne : found.NonEmpty) :
    found'.NonEmpty ∧ (found.entries ++ [entry]).Perm found'.entries := by
  rcases parseEntry_structLogic_iff.1 h with ⟨v, rfl, hv, hslot, rfl⟩ | ⟨v, rfl, hv, hslot, rfl⟩
  · refine ⟨⟨by simpa using hv, hne.2⟩, ?_⟩
    simp only [StructAttrs.entries, hslot]
    exact List.perm_append_singleton _ _
  · refine ⟨⟨hne.1, by simpa using hv⟩, ?_⟩
    simp only [StructAttrs.entries, hslot]
    simp

/-- The entries of the struct are, in some order, those that the keys read from them stand for. -/
theorem foldlM_structLogic_inv {entries : List Entry} {found found' : StructAttrs}
    (h : entries.foldlM (parseEntry structLogic) found = .ok found') (hne : found.NonEmpty) :
    found'.NonEmpty ∧ (found.entries ++ entries).Perm found'.entries := by
  induction entries generalizing found with
  | nil =>
    cases h
    exact ⟨hne, by rw [List.append_nil]⟩
  | cons entry entries ih =>
    obtain ⟨found₁, h₁, h⟩ := foldlM_cons_eq_ok_iff.1 h
    obtain ⟨hne₁, hperm₁⟩ := parseEntry_structLogic_inv h₁ hne
    obtain ⟨hne', hperm⟩ := ih h hne₁
    refine ⟨hne', ?_⟩
    rw [List.append_cons]
    exact (hperm₁.append_right _).trans hperm

/-- Reading both keys from a list of entries: they are one `kind` and one `aggregate`. -/
theorem foldlM_structLogic_iff {entries : List Entry} {kind aggregate : String} :
    entries.foldlM (parseEntry structLogic) ⟨none, none⟩ = .ok ⟨some kind, some aggregate⟩ ↔
      entries.Perm [.keyValue "kind" kind, .keyValue "aggregate" aggregate] ∧
        kind ≠ "" ∧ aggregate ≠ "" := by
  constructor
  · intro h
    obtain ⟨⟨hkind, haggregate⟩, hperm⟩ := foldlM_structLogic_inv h ⟨nofun, nofun⟩
    exact ⟨hperm, by simpa using hkind, by simpa using haggregate⟩
  · rintro ⟨hperm, hkind, haggregate⟩
    rcases List.perm_pair.1 hperm with rfl | rfl
    · refine foldlM_cons_eq_ok_iff.2
        ⟨_, parseEntry_structLogic_iff.2 (.inl ⟨kind, rfl, hkind, rfl, rfl⟩), ?_⟩
      exact foldlM_cons_eq_ok_iff.2
        ⟨_, parseEntry_structLogic_iff.2 (.inr ⟨aggregate, rfl, haggregate, rfl, rfl⟩), rfl⟩
    · refine foldlM_cons_eq_ok_iff.2
        ⟨_, parseEntry_structLogic_iff.2 (.inr ⟨aggregate, rfl, haggregate, rfl, rfl⟩), ?_⟩
      exact foldlM_cons_eq_ok_iff.2
        ⟨_, parseEntry_structLogic_iff.2 (.inl ⟨kind, rfl, hkind, rfl, rfl⟩), rfl⟩

/-- Attributes other than the `event` ones are skipped. -/
theorem structAttr_skip (found : StructAttrs) (attr : Attribute) (h : attr.isEvent = false) :
    structAttr found attr = .ok found := by
  simp [structAttr, h, pure, Except.pure]

/-- One `event` attribute of the struct. -/
theorem structAttr_eq_ok_iff {found found' : StructAttrs} {attr : Attribute} (h : attr.isEvent) :
    structAttr found attr = .ok found' ↔
      attr.ListForm ∧ attr.entries.foldlM (parseEntry structLogic) found = .ok found' := by
  have hskip : ¬ (!attr.isEvent) = true := by simp [h]
  rw [structAttr, if_neg hskip, parseNestedMeta_eq_ok_iff]

/-- The struct's attributes yield the literals of one `kind` and one `aggregate`. -/
theorem parseStructAttrs_eq_ok_iff {ast : DeriveInput} {kind aggregate : String} :
    parseStructAttrs ast = .ok (kind, aggregate) ↔
      (∀ attr ∈ eventAttrs ast.attrs, attr.ListForm) ∧
        (eventEntries ast.attrs).Perm [.keyValue "kind" kind, .keyValue "aggregate" aggregate] ∧
        kind ≠ "" ∧ aggregate ≠ "" := by
  have hloop : ∀ found, ast.attrs.foldlM structAttr ⟨none, none⟩ = .ok found ↔
      (∀ attr ∈ eventAttrs ast.attrs, attr.ListForm) ∧
        (eventEntries ast.attrs).foldlM (parseEntry structLogic) ⟨none, none⟩ = .ok found := by
    intro found
    rw [← foldlM_filter_of_skip structAttr_skip]
    refine foldlM_eq_ok_iff (Sequential.foldlM _) fun attr hattr found found' => ?_
    exact structAttr_eq_ok_iff (List.mem_filter.1 hattr).2
  rw [← foldlM_structLogic_iff, ← hloop]
  constructor
  · intro h
    obtain ⟨⟨slot, slot'⟩, hfound, h⟩ := bind_eq_ok_iff.1 h
    obtain ⟨kindVal, hkind, h⟩ := bind_eq_ok_iff.1 h
    obtain ⟨aggregateVal, haggregate, h⟩ := bind_eq_ok_iff.1 h
    cases h
    obtain rfl : slot = some kind := okOrElse_eq_ok_iff.1 hkind
    obtain rfl : slot' = some aggregate := okOrElse_eq_ok_iff.1 haggregate
    exact hfound
  · intro hfound
    exact bind_eq_ok_iff.2 ⟨_, hfound, rfl⟩

/-! ## The marked field -/

/-- What entries do to a mark: none leave it as it is, one bare `aggregate_id` sets it where it was
not set. -/
def Marks (entries : List Entry) (marked marked' : Bool) : Prop :=
  entries = [] ∧ marked' = marked ∨ entries = [.aggregateId] ∧ marked = false ∧ marked' = true

/-- Marks compose when entries are appended. -/
theorem sequential_marks : Sequential Marks where
  nil_iff := by simp [Marks]
  append_iff := by
    intro xs ys b b''
    constructor
    · rintro (⟨hnil, rfl⟩ | ⟨hone, rfl, rfl⟩)
      · obtain ⟨rfl, rfl⟩ := List.append_eq_nil_iff.1 hnil
        exact ⟨_, .inl ⟨rfl, rfl⟩, .inl ⟨rfl, rfl⟩⟩
      · rcases List.append_eq_singleton_iff.1 hone with ⟨rfl, rfl⟩ | ⟨rfl, rfl⟩
        · exact ⟨false, .inl ⟨rfl, rfl⟩, .inr ⟨rfl, rfl, rfl⟩⟩
        · exact ⟨true, .inr ⟨rfl, rfl, rfl⟩, .inl ⟨rfl, rfl⟩⟩
    · rintro ⟨b', ⟨rfl, rfl⟩ | ⟨rfl, rfl, rfl⟩, hys⟩
      · exact hys
      · rcases hys with ⟨rfl, rfl⟩ | ⟨-, hset, -⟩
        · exact .inr ⟨rfl, rfl, rfl⟩
        · exact nomatch hset

/-- From no mark on, there is at most one entry. -/
theorem exists_marks_iff {entries : List Entry} :
    (∃ marked, Marks entries false marked) ↔ entries = [] ∨ entries = [.aggregateId] := by
  constructor
  · rintro ⟨_, ⟨h, -⟩ | ⟨h, -⟩⟩
    · exact .inl h
    · exact .inr h
  · rintro (h | h)
    · exact ⟨false, .inl ⟨h, rfl⟩⟩
    · exact ⟨true, .inr ⟨h, rfl, rfl⟩⟩

/-- The entries of one attribute of a field, from the state of its flag on. -/
theorem foldlM_fieldLogic_iff {entries : List Entry} {b b' : Bool} :
    entries.foldlM (parseEntry fieldLogic) b = .ok b' ↔ Marks entries b b' := by
  have hstep : ∀ b entry b', parseEntry fieldLogic b entry = .ok b' ↔
      True ∧ Marks [entry] b b' := by
    intro b entry b'
    rw [parseEntry_eq_ok_iff]
    constructor
    · rintro ⟨path, input, rfl, h⟩
      unfold fieldLogic at h
      split at h
      · next hpath =>
        obtain rfl : path = .ofIdent "aggregate_id" := Path.isIdent_iff.1 hpath
        cases b with
        | true => exact nomatch h
        | false =>
          obtain ⟨rfl, rfl⟩ : true = b' ∧ input = [] := by simpa using h
          exact ⟨trivial, .inr ⟨rfl, rfl, rfl⟩⟩
      · exact nomatch h
    · rintro ⟨-, ⟨hnil, -⟩ | ⟨hone, rfl, rfl⟩⟩
      · exact nomatch hnil
      · cases hone
        exact ⟨_, _, rfl, if_pos (Path.isIdent_iff.2 rfl)⟩
  rw [foldlM_eq_ok_iff sequential_marks fun entry _ b => hstep b entry, List.flatMap_singleton']
  exact ⟨And.right, fun h => ⟨fun _ _ => trivial, h⟩⟩

/-- Attributes other than the `event` ones are skipped. -/
theorem fieldAttr_skip (field : Field) (state : Bool × List Field) (attr : Attribute)
    (h : attr.isEvent = false) : fieldAttr field state attr = .ok state := by
  simp [fieldAttr, h, pure, Except.pure]

/-- One `event` attribute of a field, over the mark and the fields found so far. -/
theorem fieldAttr_eq_ok_iff {field : Field} {state state' : Bool × List Field} {attr : Attribute}
    (h : attr.isEvent) :
    fieldAttr field state attr = .ok state' ↔
      attr.ListForm ∧ Marks attr.entries state.1 state'.1 ∧
        state'.2 = state.2 ++ attr.entries.map fun _ => field := by
  obtain ⟨marked, found⟩ := state
  obtain ⟨marked', found'⟩ := state'
  have hskip : ¬ (!attr.isEvent) = true := by simp [h]
  rw [fieldAttr, if_neg hskip, bind_eq_ok_iff]
  constructor
  · rintro ⟨isAggregateId, hparse, hstep⟩
    obtain ⟨hlist, hentries⟩ := parseNestedMeta_eq_ok_iff.1 hparse
    refine ⟨hlist, ?_⟩
    rcases foldlM_fieldLogic_iff.1 hentries with ⟨hnil, rfl⟩ | ⟨hone, -, rfl⟩
    · cases hstep
      exact ⟨.inl ⟨hnil, rfl⟩, by rw [hnil, List.map_nil, List.append_nil]⟩
    · cases marked with
      | true => exact nomatch hstep
      | false =>
        cases hstep
        exact ⟨.inr ⟨hone, rfl, rfl⟩, by rw [hone, List.map_singleton]⟩
  · rintro ⟨hlist, hmarks, hfound⟩
    dsimp only at hmarks hfound
    rcases hmarks with ⟨hnil, rfl⟩ | ⟨hone, rfl, rfl⟩
    · refine ⟨false, parseNestedMeta_eq_ok_iff.2
        ⟨hlist, foldlM_fieldLogic_iff.2 (.inl ⟨hnil, rfl⟩)⟩, ?_⟩
      rw [hfound, hnil, List.map_nil, List.append_nil]
      rfl
    · refine ⟨true, parseNestedMeta_eq_ok_iff.2
        ⟨hlist, foldlM_fieldLogic_iff.2 (.inr ⟨hone, rfl, rfl⟩)⟩, ?_⟩
      rw [hfound, hone, List.map_singleton]
      rfl

/-- A field is found as often as it is marked. -/
theorem findInField_eq_ok_iff {found found' : List Field} {field : Field} :
    findInField found field = .ok found' ↔
      ((∀ attr ∈ eventAttrs field.attrs, attr.ListForm) ∧
        (eventEntries field.attrs = [] ∨ eventEntries field.attrs = [.aggregateId])) ∧
      found' = found ++ (eventEntries field.attrs).map fun _ => field := by
  have hloop : ∀ state', field.attrs.foldlM (fieldAttr field) (false, found) = .ok state' ↔
      (∀ attr ∈ eventAttrs field.attrs, attr.ListForm) ∧
        Marks (eventEntries field.attrs) false state'.1 ∧
          state'.2 = found ++ (eventEntries field.attrs).map fun _ => field := by
    intro state'
    rw [← foldlM_filter_of_skip (fieldAttr_skip field)]
    refine foldlM_eq_ok_iff (sequential_marks.prod (Sequential.push.map fun _ => field))
      fun attr hattr state state' => ?_
    exact fieldAttr_eq_ok_iff (List.mem_filter.1 hattr).2
  rw [findInField, bind_eq_ok_iff, ← exists_marks_iff]
  constructor
  · rintro ⟨⟨marked, _⟩, hstate, h⟩
    cases h
    obtain ⟨hlist, hmarks, hfound⟩ := (hloop _).1 hstate
    exact ⟨⟨hlist, marked, hmarks⟩, hfound⟩
  · rintro ⟨⟨hlist, marked, hmarks⟩, hfound⟩
    exact ⟨(marked, found'), (hloop _).2 ⟨hlist, hmarks, hfound⟩, rfl⟩

/-- The fields are read if none is marked twice; those found are the marked ones. -/
theorem foldlM_findInField_iff {named found : List Field} :
    named.foldlM findInField [] = .ok found ↔
      (∀ field ∈ named, (∀ attr ∈ eventAttrs field.attrs, attr.ListForm) ∧
        (eventEntries field.attrs = [] ∨ eventEntries field.attrs = [.aggregateId])) ∧
      found = named.flatMap fun field => (eventEntries field.attrs).map fun _ => field :=
  foldlM_eq_ok_iff (f := findInField) Sequential.push fun _ _ _ _ => findInField_eq_ok_iff

/-- One field is found: there is one entry in all, and it is that field's. -/
theorem foldlM_findInField_singleton_iff {named : List Field} {field : Field} :
    named.foldlM findInField [] = .ok [field] ↔
      (∀ f ∈ named, ∀ attr ∈ eventAttrs f.attrs, attr.ListForm) ∧
        named.flatMap (fun f => eventEntries f.attrs) = [.aggregateId] ∧
        field ∈ named ∧ eventEntries field.attrs = [.aggregateId] := by
  rw [foldlM_findInField_iff, eq_comm (a := [field]), flatMap_owner_eq_singleton_iff]
  constructor
  · rintro ⟨hall, entry, hflat, hmem, hone⟩
    have hentry : eventEntries field.attrs = [.aggregateId] := by
      rcases (hall field hmem).2 with hnil | hagg
      · rw [hone] at hnil
        exact nomatch hnil
      · exact hagg
    rw [hone.symm.trans hentry] at hflat
    exact ⟨fun f hf => (hall f hf).1, hflat, hmem, hentry⟩
  · rintro ⟨hlist, hflat, hmem, hone⟩
    refine ⟨fun f hf => ⟨hlist f hf, ?_⟩, _, hflat, hmem, hone⟩
    have hsub : (eventEntries f.attrs).Sublist (named.flatMap fun f => eventEntries f.attrs) :=
      List.sublist_flatten_of_mem (List.mem_map_of_mem hf)
    rw [hflat] at hsub
    exact List.sublist_singleton.1 hsub

end OutboxPublisher.Derive
