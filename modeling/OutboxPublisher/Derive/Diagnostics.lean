import OutboxPublisher.Interaction.Report
import OutboxPublisher.Derive.Grammar

/-!
# What the derive macro reports

`DeriveInput.faults` lists all that is wrong with an item, in the order of its text: each entry is
judged by the entries before it, however they are spread over attributes, and each field by its own
attributes. The macro stops at the first error it meets, with loops that keep their own state;
`expandDomainEvent_first_fault` states that the error is the first of these faults, that there is
one wherever an item does not follow the grammar, and that each points at the place it is about.
-/

namespace OutboxPublisher.Derive

open Interaction

/-! ## Faults of the struct's attributes -/

/-- The entry begins with the key. -/
def Entry.names (key : Ident) : Entry → Bool
  | .nested path _ => path.isIdent key
  | .unexpected _ => false

/-- What is wrong with `key = …` after the entries `seen`: the literal may be of another kind, the
key may have stood before, its value may be empty, and more may follow than a value. -/
def keyFaults (key : Ident) (seen : List Entry) (path : Path) : List Token → List Error
  | .eq :: .lit (.str v) :: rest =>
    faultIf (seen.any (·.names key))
        (.new (.nested path) ("`" ++ key ++ "` specified more than once"))
      ++ faultIf v.isEmpty (.new (.nested path) ("`" ++ key ++ "` must not be empty"))
      ++ faultIf (!rest.isEmpty) .parse
  | .eq :: .lit (.other _) :: _ =>
    [.new (.nested path) ("`" ++ key ++ "` must be a string literal")]
  | _ => [.parse]

/-- What is wrong with an entry of the struct after the entries `seen`. -/
def structEntryFaults (seen : List Entry) : Entry → List Error
  | .unexpected _ => [.parse]
  | .nested path input =>
    if path.isIdent "kind" then
      keyFaults "kind" seen path input
    else if path.isIdent "aggregate" then
      keyFaults "aggregate" seen path input
    else if path.isIdent "aggregate_id" then
      [.new (.nested path) "`aggregate_id` is a field attribute, not a struct attribute"]
    else
      [.new (.nested path) "unknown `#[event]` attribute key"]

/-- What is wrong with an attribute, given what is wrong with each of its entries after the entries
`seen`. -/
def Attribute.faults (entryFaults : List Entry → Entry → List Error) (seen : List Entry)
    (attr : Attribute) : List Error :=
  match attr.content with
  | .list _ entries => scan entryFaults seen entries
  | .path _ | .nameValue _ _ => [.parse]

/-- What is wrong with an attribute of the struct after the attributes `seen`. -/
def structAttrFaults (seen : List Attribute) (attr : Attribute) : List Error :=
  if attr.isEvent then attr.faults structEntryFaults (eventEntries seen) else []

/-- A key that must stand in some entry of the struct does not. -/
def DeriveInput.missing (ast : DeriveInput) (key : Ident) : List Error :=
  faultIf (!(eventEntries ast.attrs).any (·.names key))
    (.new (.ident ast.ident) ("missing required `#[event(" ++ key ++ " = \"...\")]` attribute"))

/-! ## Faults of the fields -/

/-- What is wrong with an entry of a field, after the entries `seen` of the same attribute. -/
def fieldEntryFaults (seen : List Entry) : Entry → List Error
  | .unexpected _ => [.parse]
  | .nested path input =>
    if path.isIdent "aggregate_id" then
      faultIf (seen.any (·.names "aggregate_id")) (.new (.nested path)
          "`aggregate_id` specified more than once in the same `#[event(...)]`")
        ++ faultIf (!input.isEmpty) .parse
    else
      [.new (.nested path) "unknown `#[event]` key on field; only `aggregate_id` is valid here"]

/-- The attribute marks the field it stands on. -/
def Attribute.marks (attr : Attribute) : Bool :=
  attr.isEvent && attr.entries.any (·.names "aggregate_id")

/-- Some attribute of the field marks it. -/
def Field.marked (field : Field) : Bool :=
  field.attrs.any (·.marks)

/-- What is wrong with an attribute of a field, after the attributes `seen` of the same field. -/
def fieldAttrFaults (seen : List Attribute) (attr : Attribute) : List Error :=
  if attr.isEvent then
    attr.faults fieldEntryFaults [] ++ faultIf (attr.marks && seen.any (·.marks))
      (.new (.attribute attr) "`#[event(aggregate_id)]` specified more than once on the same field")
  else []

/-- What is wrong with the choice of the marked field. -/
def markFaults (structIdent : Ident) : List Field → List Error
  | [] => [.new (.ident structIdent)
      "no field marked `#[event(aggregate_id)]`; exactly one `Uuid` field must be annotated"]
  | [field] => faultIf (!isUuidType field.ty)
      (.new (.ty field.ty) "`#[event(aggregate_id)]` field must be of type `Uuid`")
  | _ :: second :: _ => [.new (.ident second.ident)
      "multiple fields marked `#[event(aggregate_id)]`; only one is allowed"]

/-- What is wrong with the fields of a struct. -/
def Fields.faults (structIdent : Ident) : Fields → List Error
  | .named fields =>
    scan (fun _ field => scan fieldAttrFaults [] field.attrs) [] fields
      ++ markFaults structIdent (fields.filter (·.marked))
  | .unnamed _ | .unit =>
    [.new (.ident structIdent) "`#[derive(DomainEvent)]` requires a struct with named fields"]

/-- **All that is wrong with an item**, in the order of its text. -/
def DeriveInput.faults (ast : DeriveInput) : List Error :=
  match ast.data with
  | .enum _ =>
    [.new .enumToken "`#[derive(DomainEvent)]` can only be applied to structs, not enums"]
  | .union _ =>
    [.new .unionToken "`#[derive(DomainEvent)]` can only be applied to structs, not unions"]
  | .struct fields =>
    scan structAttrFaults [] ast.attrs ++ (ast.missing "kind" ++ ast.missing "aggregate")
      ++ fields.faults ast.ident

/-! ## The struct's attributes -/

section
variable {σ : Type} {logic : σ → ParseNestedMeta → Except Error (σ × List Token)}
variable {entryFaults : List Entry → Entry → List Error} {I : List Entry → σ → Prop}

/-- An attribute reports what its entries do. -/
theorem parseNestedMeta_reports (hentry : ∀ seen entry s, I seen s →
      Reports (parseEntry logic s entry) (entryFaults seen entry) (I (seen ++ [entry])))
    (attr : Attribute) {seen : List Entry} {s : σ} (hs : I seen s) :
    Reports (parseNestedMeta logic attr s) (attr.faults entryFaults seen)
      (I (seen ++ attr.entries)) := by
  unfold parseNestedMeta Attribute.faults Attribute.entries
  cases attr.content with
  | list path entries => exact Reports.foldlM hentry hs
  | path path => exact Reports.error _
  | nameValue path value => exact Reports.error _

end

/-- The keys found are those that the entries name. -/
def Found (seen : List Entry) (found : StructAttrs) : Prop :=
  found.kind.isSome = seen.any (·.names "kind") ∧
    found.aggregate.isSome = seen.any (·.names "aggregate")

/-- An entry `key = …` of the struct, where the key's slot tells if it stood before. -/
theorem parseKey_reports {key : Ident} {slot : Option String} {set : String → StructAttrs}
    {seen : List Entry} {path : Path} {input : List Token} {P : StructAttrs → Prop}
    (hslot : slot.isSome = seen.any (·.names key)) (hset : ∀ v, P (set v)) :
    Reports (do
        let (found, rest) ← parseKey key slot set ⟨path, input⟩
        if rest.isEmpty then pure found else .error .parse)
      (keyFaults key seen path input) P := by
  match input with
  | .eq :: .lit (.str v) :: rest =>
    rw [keyFaults, ← hslot]
    have hkey : Reports (parseKey key slot set ⟨path, .eq :: .lit (.str v) :: rest⟩)
        (faultIf slot.isSome (.new (.nested path) ("`" ++ key ++ "` specified more than once"))
          ++ faultIf v.isEmpty (.new (.nested path) ("`" ++ key ++ "` must not be empty")))
        fun read => read = (set v, rest) :=
      Reports.guard fun _ => Reports.refuse fun _ => rfl
    refine hkey.bind fun read hread => ?_
    subst hread
    exact Reports.require fun _ => hset v
  | .eq :: .lit (.other text) :: rest => exact Reports.error _
  | [] => exact Reports.error _
  | .lit lit :: rest => exact Reports.error _
  | .other text :: rest => exact Reports.error _
  | [.eq] => exact Reports.error _
  | .eq :: .eq :: rest => exact Reports.error _
  | .eq :: .other text :: rest => exact Reports.error _

/-- An entry of the struct reports its faults. -/
theorem structEntry_reports (seen : List Entry) (entry : Entry) (found : StructAttrs)
    (h : Found seen found) :
    Reports (parseEntry structLogic found entry) (structEntryFaults seen entry)
      (Found (seen ++ [entry])) := by
  cases entry with
  | unexpected text => exact Reports.error _
  | nested path input =>
    unfold parseEntry structLogic structEntryFaults
    dsimp only
    split
    · next hkind =>
      obtain rfl : path = .ofIdent "kind" := Path.isIdent_iff.1 hkind
      refine parseKey_reports h.1 fun v => ⟨?_, ?_⟩
      · simp [Entry.names, hkind]
      · have hother : (Path.ofIdent "kind").isIdent "aggregate" = false := by decide
        simp [Entry.names, hother, h.2]
    · next hkind =>
      split
      · next haggregate =>
        refine parseKey_reports h.2 fun v => ⟨?_, ?_⟩
        · simp [Entry.names, hkind, h.1]
        · simp [Entry.names, haggregate]
      · split
        · exact Reports.error _
        · exact Reports.error _

/-- The entries of attributes in turn. -/
theorem eventEntries_append_singleton (seen : List Attribute) (attr : Attribute) :
    eventEntries (seen ++ [attr]) =
      eventEntries seen ++ if attr.isEvent then attr.entries else [] := by
  cases h : attr.isEvent <;> simp [eventEntries, eventAttrs, h]

/-- An attribute of the struct reports its faults. -/
theorem structAttr_reports (seen : List Attribute) (attr : Attribute) (found : StructAttrs)
    (h : Found (eventEntries seen) found) :
    Reports (structAttr found attr) (structAttrFaults seen attr)
      (Found (eventEntries (seen ++ [attr]))) := by
  rw [eventEntries_append_singleton]
  cases hevent : attr.isEvent with
  | false =>
    rw [structAttr_skip found attr hevent, structAttrFaults, hevent]
    exact Reports.ok (by simpa using h)
  | true =>
    simp only [structAttr, structAttrFaults, hevent]
    exact parseNestedMeta_reports structEntry_reports attr h

/-- A key that is missing is reported. -/
theorem okOrElse_reports {α : Type} {o : Option α} {err : Error} :
    Reports (okOrElse o err) (faultIf (!o.isSome) err) fun _ => True := by
  cases o with
  | none => exact Reports.error _
  | some a => exact Reports.ok trivial

/-- The attributes of the struct report their faults, and then the keys that are missing. -/
theorem parseStructAttrs_reports (ast : DeriveInput) :
    Reports (parseStructAttrs ast)
      (scan structAttrFaults [] ast.attrs ++ (ast.missing "kind" ++ ast.missing "aggregate"))
      fun _ => True := by
  have hloop : Reports (ast.attrs.foldlM structAttr ⟨none, none⟩)
      (scan structAttrFaults [] ast.attrs) (Found (eventEntries ast.attrs)) :=
    Reports.foldlM (I := fun seen => Found (eventEntries seen)) structAttr_reports ⟨rfl, rfl⟩
  refine hloop.bind fun found hfound => ?_
  unfold DeriveInput.missing
  rw [← hfound.1, ← hfound.2]
  refine okOrElse_reports.bind fun kindVal _ => ?_
  rw [← List.append_nil (faultIf _ _)]
  exact okOrElse_reports.bind fun aggregateVal _ => Reports.ok trivial

/-! ## The marked field -/

/-- An entry of a field reports its faults. -/
theorem fieldEntry_reports (seen : List Entry) (entry : Entry) (isAggregateId : Bool)
    (h : isAggregateId = seen.any (·.names "aggregate_id")) :
    Reports (parseEntry fieldLogic isAggregateId entry) (fieldEntryFaults seen entry)
      fun isAggregateId => isAggregateId = (seen ++ [entry]).any (·.names "aggregate_id") := by
  cases entry with
  | unexpected text => exact Reports.error _
  | nested path input =>
    unfold parseEntry fieldLogic fieldEntryFaults
    dsimp only
    split
    · next hpath =>
      rw [h]
      refine (Reports.refuse (P := (· = (true, input))) fun _ => rfl).bind fun read hread => ?_
      subst hread
      exact Reports.require fun _ => by simp [Entry.names, hpath]
    · exact Reports.error _

/-- The fields found, once one field has been read as far as `seen`. -/
def FoundOn (field : Field) (found : List Field) (seen : List Attribute)
    (state : Bool × List Field) : Prop :=
  state.1 = seen.any (·.marks) ∧
    state.2 = found ++ if seen.any (·.marks) then [field] else []

/-- An attribute of a field reports its faults. -/
theorem fieldAttr_reports (field : Field) (found : List Field) (seen : List Attribute)
    (attr : Attribute) (state : Bool × List Field) (h : FoundOn field found seen state) :
    Reports (fieldAttr field state attr) (fieldAttrFaults seen attr)
      (FoundOn field found (seen ++ [attr])) := by
  cases hevent : attr.isEvent with
  | false =>
    rw [fieldAttr_skip field state attr hevent, fieldAttrFaults, hevent]
    refine Reports.ok ?_
    simpa [FoundOn, Attribute.marks, hevent] using h
  | true =>
    obtain ⟨marked, fields⟩ := state
    obtain ⟨rfl, rfl⟩ := h
    simp only [fieldAttr, fieldAttrFaults, hevent]
    refine (parseNestedMeta_reports fieldEntry_reports attr rfl).bind fun isAggregateId hmarks => ?_
    have hattr : attr.marks = isAggregateId := by simp [Attribute.marks, hevent, hmarks]
    rw [hattr]
    cases isAggregateId with
    | false => exact Reports.ok (by simp [FoundOn, hattr])
    | true =>
      refine Reports.refuse fun hseen => ?_
      simp [FoundOn, hattr, hseen]

/-- A field reports its faults. -/
theorem findInField_reports (seen : List Field) (field : Field) (found : List Field)
    (h : found = seen.filter (·.marked)) :
    Reports (findInField found field) (scan fieldAttrFaults [] field.attrs)
      fun found => found = (seen ++ [field]).filter (·.marked) := by
  have hloop : Reports (field.attrs.foldlM (fieldAttr field) (false, found))
      (scan fieldAttrFaults [] field.attrs) (FoundOn field found field.attrs) :=
    Reports.foldlM (fieldAttr_reports field found) ⟨rfl, (List.append_nil found).symm⟩
  rw [← List.append_nil (scan _ _ _)]
  refine hloop.bind fun state hstate => Reports.ok ?_
  rw [hstate.2, h, List.filter_append, List.filter_singleton, Bool.cond_eq_ite]
  rfl

/-- The fields report their faults, and then the choice of the marked one. -/
theorem findAggregateIdField_reports (structIdent : Ident) (fields : Fields) :
    Reports (findAggregateIdField structIdent fields) (fields.faults structIdent)
      fun _ => True := by
  cases fields with
  | unnamed tys => exact Reports.error _
  | unit => exact Reports.error _
  | named fields =>
    have hloop : Reports (fields.foldlM findInField [])
        (scan (fun _ field => scan fieldAttrFaults [] field.attrs) [] fields)
        fun found => found = fields.filter (·.marked) :=
      Reports.foldlM findInField_reports rfl
    refine hloop.bind fun found hfound => ?_
    rw [← hfound]
    match found with
    | [] => exact Reports.error _
    | [field] =>
      rw [markFaults, ← List.append_nil (faultIf _ _)]
      refine Reports.bind (P := fun _ => True) ?_ fun _ _ => Reports.ok trivial
      exact Reports.require fun _ => trivial
    | _ :: _ :: _ => exact Reports.error _

/-! ## Where the faults are -/

/-- The places of an item that an error may point at. -/
inductive DeriveInput.Place (ast : DeriveInput) : Span → Prop
  | enumToken {variants : List Ident} (h : ast.data = .enum variants) : Place ast .enumToken
  | unionToken {fields : List Field} (h : ast.data = .union fields) : Place ast .unionToken
  | ident : Place ast (.ident ast.ident)
  | entry {path : Path} {input : List Token} (h : .nested path input ∈ eventEntries ast.attrs) :
    Place ast (.nested path)
  | fieldEntry {fields : List Field} {field : Field} {path : Path} {input : List Token}
    (h : ast.data = .struct (.named fields)) (hf : field ∈ fields)
    (he : .nested path input ∈ eventEntries field.attrs) : Place ast (.nested path)
  | fieldAttribute {fields : List Field} {field : Field} {attr : Attribute}
    (h : ast.data = .struct (.named fields)) (hf : field ∈ fields)
    (ha : attr ∈ eventAttrs field.attrs) : Place ast (.attribute attr)
  | fieldIdent {fields : List Field} {field : Field} (h : ast.data = .struct (.named fields))
    (hf : field ∈ fields) : Place ast (.ident field.ident)
  | fieldTy {fields : List Field} {field : Field} (h : ast.data = .struct (.named fields))
    (hf : field ∈ fields) : Place ast (.ty field.ty)

section
variable {span : Span} {message : String}

/-- The span is that of the entry. -/
def Entry.At (span : Span) (entry : Entry) : Prop :=
  ∃ path input, entry = .nested path input ∧ span = .nested path

/-- A fault of an entry of the struct points at the entry. -/
theorem at_of_mem_structEntryFaults {seen : List Entry} {entry : Entry}
    (h : .new span message ∈ structEntryFaults seen entry) : entry.At span := by
  cases entry with
  | unexpected text => simp [structEntryFaults] at h
  | nested path input =>
    refine ⟨path, input, rfl, ?_⟩
    have hkey : ∀ key, .new span message ∈ keyFaults key seen path input →
        span = .nested path := by
      intro key hkey
      unfold keyFaults at hkey
      split at hkey
      · simp only [List.mem_append, mem_faultIf, Error.new.injEq] at hkey
        rcases hkey with (⟨-, hspan, -⟩ | ⟨-, hspan, -⟩) | ⟨-, hparse⟩
        · exact hspan
        · exact hspan
        · cases hparse
      · exact (Error.new.inj (List.mem_singleton.1 hkey)).1
      · cases List.mem_singleton.1 hkey
    unfold structEntryFaults at h
    dsimp only at h
    split at h
    · exact hkey _ h
    · split at h
      · exact hkey _ h
      · split at h <;> exact (Error.new.inj (List.mem_singleton.1 h)).1

/-- A fault of an entry of a field points at the entry. -/
theorem at_of_mem_fieldEntryFaults {seen : List Entry} {entry : Entry}
    (h : .new span message ∈ fieldEntryFaults seen entry) : entry.At span := by
  cases entry with
  | unexpected text => simp [fieldEntryFaults] at h
  | nested path input =>
    refine ⟨path, input, rfl, ?_⟩
    unfold fieldEntryFaults at h
    dsimp only at h
    split at h
    · simp only [List.mem_append, mem_faultIf, Error.new.injEq] at h
      rcases h with ⟨-, hspan, -⟩ | ⟨-, hparse⟩
      · exact hspan
      · cases hparse
    · exact (Error.new.inj (List.mem_singleton.1 h)).1

/-- A fault of an attribute's entries points at one of them. -/
theorem at_of_mem_faults {entryFaults : List Entry → Entry → List Error}
    (hentry : ∀ {seen entry}, .new span message ∈ entryFaults seen entry → entry.At span)
    {attr : Attribute} {seen : List Entry}
    (h : .new span message ∈ attr.faults entryFaults seen) :
    ∃ entry ∈ attr.entries, entry.At span := by
  unfold Attribute.faults at h
  unfold Attribute.entries
  cases hcontent : attr.content with
  | list path entries =>
    rw [hcontent] at h
    obtain ⟨seen', entry, hmem, h⟩ := exists_mem_of_mem_scan h
    exact ⟨entry, hmem, hentry h⟩
  | path path =>
    rw [hcontent] at h
    cases List.mem_singleton.1 h
  | nameValue path value =>
    rw [hcontent] at h
    cases List.mem_singleton.1 h

/-- An entry of an `event` attribute is an event entry. -/
theorem mem_eventEntries {attrs : List Attribute} {attr : Attribute} {entry : Entry}
    (ha : attr ∈ attrs) (hevent : attr.isEvent = true) (he : entry ∈ attr.entries) :
    entry ∈ eventEntries attrs :=
  List.mem_flatMap.2 ⟨attr, List.mem_filter.2 ⟨ha, hevent⟩, he⟩

/-- A fault of the struct's attributes points at one of their entries. -/
theorem at_of_mem_scan_structAttrFaults {attrs : List Attribute}
    (h : .new span message ∈ scan structAttrFaults [] attrs) :
    ∃ entry ∈ eventEntries attrs, entry.At span := by
  obtain ⟨seen, attr, hattr, h⟩ := exists_mem_of_mem_scan h
  unfold structAttrFaults at h
  split at h
  · next hevent =>
    obtain ⟨entry, hentry, hat⟩ := at_of_mem_faults at_of_mem_structEntryFaults h
    exact ⟨entry, mem_eventEntries hattr hevent hentry, hat⟩
  · exact absurd h List.not_mem_nil

/-- A fault of a field's attributes points at one of them, or at one of their entries. -/
theorem at_of_mem_scan_fieldAttrFaults {attrs : List Attribute}
    (h : .new span message ∈ scan fieldAttrFaults [] attrs) :
    (∃ entry ∈ eventEntries attrs, entry.At span) ∨
      ∃ attr ∈ eventAttrs attrs, span = .attribute attr := by
  obtain ⟨seen, attr, hattr, h⟩ := exists_mem_of_mem_scan h
  unfold fieldAttrFaults at h
  split at h
  · next hevent =>
    rcases List.mem_append.1 h with h | h
    · obtain ⟨entry, hentry, hat⟩ := at_of_mem_faults at_of_mem_fieldEntryFaults h
      exact .inl ⟨entry, mem_eventEntries hattr hevent hentry, hat⟩
    · simp only [mem_faultIf, Error.new.injEq] at h
      exact .inr ⟨attr, List.mem_filter.2 ⟨hattr, hevent⟩, h.2.1⟩
  · exact absurd h List.not_mem_nil

/-- A fault of the choice of the marked field points at the struct's name, or at a marked field. -/
theorem place_of_mem_markFaults {ast : DeriveInput} {fields marked : List Field}
    (hdata : ast.data = .struct (.named fields)) (hsub : ∀ field ∈ marked, field ∈ fields)
    (h : .new span message ∈ markFaults ast.ident marked) : ast.Place span := by
  match marked with
  | [] =>
    obtain ⟨rfl, -⟩ := Error.new.inj (List.mem_singleton.1 h)
    exact .ident
  | [field] =>
    obtain ⟨rfl, -⟩ := Error.new.inj (mem_faultIf.1 h).2
    exact .fieldTy hdata (hsub field List.mem_cons_self)
  | _ :: second :: _ =>
    obtain ⟨rfl, -⟩ := Error.new.inj (List.mem_singleton.1 h)
    exact .fieldIdent hdata (hsub second (List.mem_cons_of_mem _ List.mem_cons_self))

/-- A fault of the fields points at one of them, or at the struct's name. -/
theorem place_of_mem_fieldsFaults {ast : DeriveInput} {fields : Fields}
    (hdata : ast.data = .struct fields) (h : .new span message ∈ fields.faults ast.ident) :
    ast.Place span := by
  cases fields with
  | unnamed tys =>
    obtain ⟨rfl, -⟩ := Error.new.inj (List.mem_singleton.1 h)
    exact .ident
  | unit =>
    obtain ⟨rfl, -⟩ := Error.new.inj (List.mem_singleton.1 h)
    exact .ident
  | named fields =>
    rcases List.mem_append.1 h with h | h
    · obtain ⟨-, field, hfield, h⟩ := exists_mem_of_mem_scan h
      rcases at_of_mem_scan_fieldAttrFaults h with
        ⟨_, hentry, path, input, rfl, rfl⟩ | ⟨attr, ha, rfl⟩
      · exact .fieldEntry hdata hfield hentry
      · exact .fieldAttribute hdata hfield ha
    · exact place_of_mem_markFaults hdata (fun _ => List.mem_of_mem_filter) h

/-- Every fault that says what is wrong points at a place of the item. -/
theorem place_of_mem_faults {ast : DeriveInput} (h : .new span message ∈ ast.faults) :
    ast.Place span := by
  unfold DeriveInput.faults at h
  split at h
  · next hdata =>
    obtain ⟨rfl, -⟩ := Error.new.inj (List.mem_singleton.1 h)
    exact .enumToken hdata
  · next hdata =>
    obtain ⟨rfl, -⟩ := Error.new.inj (List.mem_singleton.1 h)
    exact .unionToken hdata
  · next hdata =>
    simp only [List.mem_append, DeriveInput.missing, mem_faultIf, Error.new.injEq] at h
    rcases h with (h | ⟨-, rfl, -⟩ | ⟨-, rfl, -⟩) | h
    · obtain ⟨_, hentry, path, input, rfl, rfl⟩ := at_of_mem_scan_structAttrFaults h
      exact .entry hentry
    · exact .ident
    · exact .ident
    · exact place_of_mem_fieldsFaults hdata h

end

/-! ## The macro -/

/-- The macro reports the faults of its item. -/
theorem expandDomainEvent_reports (ast : DeriveInput) :
    Reports (expandDomainEvent ast) ast.faults fun _ => True := by
  unfold expandDomainEvent DeriveInput.faults
  cases ast.data with
  | enum variants => exact Reports.error _
  | union fields => exact Reports.error _
  | struct fields =>
    dsimp only
    rw [← List.append_nil (fields.faults _)]
    refine (parseStructAttrs_reports ast).bind fun attrs _ => ?_
    exact (findAggregateIdField_reports ast.ident fields).bind fun field _ => Reports.ok trivial

/-- **The derive macro reports the first fault.** Its error is the first of all that is wrong with
the item in the order of its text; nothing is wrong with an item exactly if it follows the grammar;
and every error with a message points at the place of the item that the fault is about. Reference:
`expand_domain_event` (`outbox-publisher-derive/src/lib.rs:68`). -/
theorem expandDomainEvent_first_fault (ast : DeriveInput) :
    (∀ err, expandDomainEvent ast = .error err ↔ ast.faults.head? = some err) ∧
    (ast.faults = [] ↔ ∃ kind aggregate fields field, Grammar ast kind aggregate fields field) ∧
    ∀ span message, .new span message ∈ ast.faults → ast.Place span := by
  refine ⟨?_, ?_, ?_⟩
  · intro err
    exact (expandDomainEvent_reports ast).eq_error_iff
  · rw [← (expandDomainEvent_reports ast).exists_ok_iff]
    constructor
    · rintro ⟨item, h⟩
      obtain ⟨kind, aggregate, fields, field, hg, -⟩ := expandDomainEvent_eq_ok_iff.1 h
      exact ⟨kind, aggregate, fields, field, hg⟩
    · rintro ⟨kind, aggregate, fields, field, hg⟩
      exact ⟨_, expandDomainEvent_eq_ok_iff.2 ⟨kind, aggregate, fields, field, hg, rfl⟩⟩
  · intro span message h
    exact place_of_mem_faults h

/-- A struct with five of the mistakes that the macro's tests are about: an empty `kind`,
`aggregate_id` on the struct, no `aggregate`, an unknown key on a field, and no marked field.
Reference: `outbox-publisher/tests/ui/`. -/
def userRegistered : DeriveInput where
  attrs := [⟨.list (.ofIdent "event") [.keyValue "kind" "", .aggregateId]⟩]
  ident := "UserRegistered"
  implGenerics := ""
  tyGenerics := ""
  whereClause := ""
  data := .struct (.named [⟨[⟨.list (.ofIdent "event") [.nested (.ofIdent "typo") []]⟩], "user_id",
    .path none (.ofIdent "Uuid")⟩])

/-- The empty `kind` is what is reported for it. -/
theorem expandDomainEvent_first_fault_userRegistered :
    userRegistered.faults.length = 5 ∧
      expandDomainEvent userRegistered =
        .error (.new (.nested (.ofIdent "kind")) "`kind` must not be empty") ∧
      userRegistered.Place (.nested (.ofIdent "kind")) ∧
      ¬ ∃ kind aggregate fields field, Grammar userRegistered kind aggregate fields field := by
  obtain ⟨hfirst, hgrammar, hplace⟩ := expandDomainEvent_first_fault userRegistered
  have hhead : userRegistered.faults.head? =
      some (.new (.nested (.ofIdent "kind")) "`kind` must not be empty") := by decide
  refine ⟨by decide, (hfirst _).2 hhead, hplace _ _ (List.mem_of_head? hhead), ?_⟩
  rw [← hgrammar]
  intro hnil
  rw [hnil] at hhead
  cases hhead

end OutboxPublisher.Derive
