import OutboxPublisher.Derive.Attributes

/-!
# The grammar of the derive macro

`Grammar` says which items `#[derive(DomainEvent)]` is for: how often each key may stand in the
`event` attributes of the struct and of its fields, however the entries are spread over attributes.
`expandDomainEvent_grammar` states that the macro accepts these items and no others, that the
generated instance returns what the attributes name, and that other attributes play no part.
-/

namespace OutboxPublisher.Derive

open Interaction

/-! ## The grammar -/

/-- The type is `Uuid` or `uuid::Uuid` without generic arguments, with or without `::` before it. -/
def IsUuid (ty : Ty) : Prop :=
  ∃ path : Path, ty = .path none path ∧
    (path.segments.map (·.ident) = ["Uuid"] ∨ path.segments.map (·.ident) = ["uuid", "Uuid"]) ∧
    ∀ segment ∈ path.segments, segment.arguments.isEmpty

/-- **The attribute grammar.** The item is a struct with named fields; the entries of its `event`
attributes are one `kind` and one `aggregate` with a literal that is not empty, in either order;
those of its fields are one bare `aggregate_id` in all, on a field of type `Uuid`. -/
structure Grammar (ast : DeriveInput) (kind aggregate : String) (fields : List Field)
    (field : Field) : Prop where
  data_eq : ast.data = .struct (.named fields)
  struct_list : ∀ attr ∈ eventAttrs ast.attrs, attr.ListForm
  struct_entries : (eventEntries ast.attrs).Perm
    [.keyValue "kind" kind, .keyValue "aggregate" aggregate]
  kind_ne : kind ≠ ""
  aggregate_ne : aggregate ≠ ""
  field_list : ∀ f ∈ fields, ∀ attr ∈ eventAttrs f.attrs, attr.ListForm
  field_entries : fields.flatMap (fun f => eventEntries f.attrs) = [.aggregateId]
  field_mem : field ∈ fields
  field_marked : eventEntries field.attrs = [.aggregateId]
  field_uuid : IsUuid field.ty

/-- The macro recognises the type. -/
theorem isUuidType_iff {ty : Ty} : isUuidType ty = true ↔ IsUuid ty := by
  cases ty with
  | other tokens => simp [isUuidType, IsUuid]
  | path qself path =>
    cases qself with
    | some q => simp [isUuidType, IsUuid]
    | none =>
      obtain ⟨colon, segments⟩ := path
      match segments with
      | [] => simp [isUuidType, IsUuid]
      | [only] => simp [isUuidType, IsUuid]
      | [crateSeg, tySeg] => simp [isUuidType, IsUuid, and_assoc, and_left_comm]
      | _ :: _ :: _ :: _ => simp [isUuidType, IsUuid]

/-- The field the macro reads the identifier from. -/
theorem findAggregateIdField_eq_ok_iff {structIdent ident : Ident} {named : List Field} :
    findAggregateIdField structIdent (.named named) = .ok ident ↔
      ∃ field, named.foldlM findInField [] = .ok [field] ∧ IsUuid field.ty ∧
        ident = field.ident := by
  rw [findAggregateIdField, bind_eq_ok_iff]
  constructor
  · rintro ⟨found, hfound, h⟩
    match found with
    | [] => exact nomatch h
    | [field] =>
      obtain ⟨_, hvalid, h⟩ := bind_eq_ok_iff.1 h
      cases h
      unfold validateUuidField at hvalid
      split at hvalid
      · next huuid => exact ⟨field, hfound, isUuidType_iff.1 huuid, rfl⟩
      · exact nomatch hvalid
    | _ :: _ :: _ => exact nomatch h
  · rintro ⟨field, hfound, huuid, rfl⟩
    refine ⟨_, hfound, bind_eq_ok_iff.2 ⟨(), ?_, rfl⟩⟩
    exact if_pos (isUuidType_iff.2 huuid)

/-! ## Other attributes -/

/-- The field with no attributes but the `event` ones. -/
def Field.eventOnly (field : Field) : Field :=
  { field with attrs := eventAttrs field.attrs }

/-- The fields with no attributes but the `event` ones. -/
def Fields.eventOnly : Fields → Fields
  | .named fields => .named (fields.map Field.eventOnly)
  | fields => fields

/-- The item with no attributes but the `event` ones, on it and on the fields of a struct. -/
def DeriveInput.eventOnly (ast : DeriveInput) : DeriveInput :=
  { ast with
    attrs := eventAttrs ast.attrs
    data := match ast.data with
      | .struct fields => .struct fields.eventOnly
      | data => data }

/-- The keys of the struct are those of its `event` attributes. -/
theorem parseStructAttrs_eventOnly (ast : DeriveInput) :
    parseStructAttrs ast.eventOnly = parseStructAttrs ast := by
  have hloop := foldlM_filter_of_skip structAttr_skip ast.attrs ⟨none, none⟩
  simp only [parseStructAttrs, DeriveInput.eventOnly, eventAttrs, hloop]

/-- One attribute does the same to the fields found, with or without other attributes on them. -/
theorem fieldAttr_eventOnly (field : Field) (state : Bool × List Field) (attr : Attribute) :
    fieldAttr field.eventOnly (state.map id (·.map Field.eventOnly)) attr =
      (fieldAttr field state attr).map (·.map id (·.map Field.eventOnly)) := by
  obtain ⟨marked, found⟩ := state
  cases hevent : attr.isEvent with
  | false => rw [fieldAttr_skip _ _ _ hevent, fieldAttr_skip _ _ _ hevent, Except.map]
  | true =>
    have hskip : ¬ (!attr.isEvent) = true := by simp [hevent]
    simp only [fieldAttr, Prod.map, if_neg hskip]
    cases parseNestedMeta fieldLogic attr false with
    | error err => rfl
    | ok isAggregateId =>
      cases isAggregateId with
      | false => rfl
      | true =>
        cases marked with
        | true => rfl
        | false => simp [bind, Except.bind, pure, Except.pure, Except.map]

/-- A field is found with or without other attributes on it. -/
theorem findInField_eventOnly (found : List Field) (field : Field) :
    findInField (found.map Field.eventOnly) field.eventOnly =
      (findInField found field).map (·.map Field.eventOnly) := by
  have hloop : field.eventOnly.attrs.foldlM (fieldAttr field.eventOnly)
      (false, found.map Field.eventOnly) =
      (field.attrs.foldlM (fieldAttr field) (false, found)).map
        (·.map id (·.map Field.eventOnly)) := by
    have hom := foldlM_hom (k := id) (fieldAttr_eventOnly field) field.attrs (false, found)
    rw [List.map_id] at hom
    exact (foldlM_filter_of_skip (fieldAttr_skip field.eventOnly) _ _).trans hom
  rw [findInField, findInField, hloop]
  cases field.attrs.foldlM (fieldAttr field) (false, found) with
  | error err => rfl
  | ok state => rfl

/-- The field that is found is that of the fields' `event` attributes. -/
theorem findAggregateIdField_eventOnly (structIdent : Ident) (fields : Fields) :
    findAggregateIdField structIdent fields.eventOnly =
      findAggregateIdField structIdent fields := by
  cases fields with
  | unnamed tys => rfl
  | unit => rfl
  | named named =>
    have hloop : (named.map Field.eventOnly).foldlM findInField [] =
        (named.foldlM findInField []).map (·.map Field.eventOnly) :=
      foldlM_hom findInField_eventOnly named []
    rw [Fields.eventOnly, findAggregateIdField, findAggregateIdField, hloop]
    cases named.foldlM findInField [] with
    | error err => rfl
    | ok found =>
      match found with
      | [] => rfl
      | [field] => rfl
      | _ :: _ :: _ => rfl

/-- The macro does not see other attributes. -/
theorem expandDomainEvent_eventOnly (ast : DeriveInput) :
    expandDomainEvent ast.eventOnly = expandDomainEvent ast := by
  have hattrs := parseStructAttrs_eventOnly ast
  unfold expandDomainEvent
  rw [hattrs]
  cases hdata : ast.data with
  | struct fields => simp [DeriveInput.eventOnly, hdata, findAggregateIdField_eventOnly]
  | enum variants => simp [DeriveInput.eventOnly, hdata]
  | union fields => simp [DeriveInput.eventOnly, hdata]

/-! ## The macro and its grammar -/

/-- The macro succeeds on the items that follow the grammar, with the literals and the field that
the grammar names. Reference: `expand_domain_event` (`outbox-publisher-derive/src/lib.rs:68`). -/
theorem expandDomainEvent_eq_ok_iff {ast : DeriveInput} {item : ItemImpl} :
    expandDomainEvent ast = .ok item ↔
      ∃ kind aggregate fields field, Grammar ast kind aggregate fields field ∧
        item = ⟨ast.implGenerics, ast.ident, ast.tyGenerics, ast.whereClause, kind, aggregate,
          field.ident⟩ := by
  constructor
  · intro h
    unfold expandDomainEvent at h
    split at h
    · exact nomatch h
    · exact nomatch h
    · next fields hdata =>
      obtain ⟨⟨kind, aggregate⟩, hattrs, h⟩ := bind_eq_ok_iff.1 h
      obtain ⟨ident, hfind, h⟩ := bind_eq_ok_iff.1 h
      cases h
      obtain ⟨hlist, hperm, hkind, haggregate⟩ := parseStructAttrs_eq_ok_iff.1 hattrs
      cases fields with
      | unnamed tys => exact nomatch hfind
      | unit => exact nomatch hfind
      | named named =>
        obtain ⟨field, hfound, huuid, rfl⟩ := findAggregateIdField_eq_ok_iff.1 hfind
        obtain ⟨hlists, hone, hmem, hmark⟩ := foldlM_findInField_singleton_iff.1 hfound
        exact ⟨kind, aggregate, named, field,
          ⟨hdata, hlist, hperm, hkind, haggregate, hlists, hone, hmem, hmark, huuid⟩, rfl⟩
  · rintro ⟨kind, aggregate, fields, field, hg, rfl⟩
    have hattrs : parseStructAttrs ast = .ok (kind, aggregate) :=
      parseStructAttrs_eq_ok_iff.2
        ⟨hg.struct_list, hg.struct_entries, hg.kind_ne, hg.aggregate_ne⟩
    have hfound : fields.foldlM findInField [] = .ok [field] :=
      foldlM_findInField_singleton_iff.2
        ⟨hg.field_list, hg.field_entries, hg.field_mem, hg.field_marked⟩
    have hfind : findAggregateIdField ast.ident (.named fields) = .ok field.ident :=
      findAggregateIdField_eq_ok_iff.2 ⟨field, hfound, hg.field_uuid, rfl⟩
    rw [expandDomainEvent, hg.data_eq]
    exact bind_eq_ok_iff.2 ⟨_, hattrs, bind_eq_ok_iff.2 ⟨_, hfind, rfl⟩⟩

/-- **The derive macro accepts its grammar.** It succeeds exactly on the items that follow the
grammar; the instance it then declares for the item, with the item's generics, returns the two
literals and the marked field; and items that differ in other attributes only have one result,
errors included. Reference: `expand_domain_event` (`outbox-publisher-derive/src/lib.rs:68`). -/
theorem expandDomainEvent_grammar (ast : DeriveInput) :
    ((∃ item, expandDomainEvent ast = .ok item) ↔
      ∃ kind aggregate fields field, Grammar ast kind aggregate fields field) ∧
    (∀ kind aggregate fields field item, Grammar ast kind aggregate fields field →
      expandDomainEvent ast = .ok item →
      (item.implGenerics = ast.implGenerics ∧ item.selfTy = ast.ident ∧
        item.tyGenerics = ast.tyGenerics ∧ item.whereClause = ast.whereClause) ∧
      item.domainEvent.kind = kind ∧ item.domainEvent.aggregateType = aggregate ∧
      ∀ self, item.domainEvent.aggregateId self = self field.ident) ∧
    ∀ ast' : DeriveInput, ast'.eventOnly = ast.eventOnly →
      expandDomainEvent ast' = expandDomainEvent ast := by
  refine ⟨?_, ?_, ?_⟩
  · constructor
    · rintro ⟨item, h⟩
      obtain ⟨kind, aggregate, fields, field, hg, -⟩ := expandDomainEvent_eq_ok_iff.1 h
      exact ⟨kind, aggregate, fields, field, hg⟩
    · rintro ⟨kind, aggregate, fields, field, hg⟩
      exact ⟨_, expandDomainEvent_eq_ok_iff.2 ⟨kind, aggregate, fields, field, hg, rfl⟩⟩
  · intro kind aggregate fields field item hg h
    have hitem := expandDomainEvent_eq_ok_iff.2 ⟨kind, aggregate, fields, field, hg, rfl⟩
    rw [h] at hitem
    cases hitem
    exact ⟨⟨rfl, rfl, rfl, rfl⟩, rfl, rfl, fun _ => rfl⟩
  · intro ast' heq
    rw [← expandDomainEvent_eventOnly ast', heq, expandDomainEvent_eventOnly]

/-- The marked field of `orderPlaced`. -/
def orderId : Field :=
  ⟨[⟨.list (.ofIdent "event") [.aggregateId]⟩], "order_id", .path none (.ofIdent "Uuid")⟩

/-- The other field of `orderPlaced`. -/
def totalCents : Field :=
  ⟨[], "total_cents", .path none (.ofIdent "u64")⟩

/-- A struct with its keys in two attributes, here below a doc comment. Reference: `OrderPlaced`
(`outbox-publisher/tests/derive_happy_path.rs:36`). -/
def orderPlaced : DeriveInput where
  attrs := [⟨.nameValue (.ofIdent "doc") "An order was placed."⟩,
    ⟨.list (.ofIdent "event") [.keyValue "kind" "order.placed@v1"]⟩,
    ⟨.list (.ofIdent "event") [.keyValue "aggregate" "order"]⟩]
  ident := "OrderPlaced"
  implGenerics := ""
  tyGenerics := ""
  whereClause := ""
  data := .struct (.named [orderId, totalCents])

/-- It follows the grammar. -/
theorem orderPlaced_grammar :
    Grammar orderPlaced "order.placed@v1" "order" [orderId, totalCents] orderId := by
  have hstruct : eventAttrs orderPlaced.attrs =
      [⟨.list (.ofIdent "event") [.keyValue "kind" "order.placed@v1"]⟩,
        ⟨.list (.ofIdent "event") [.keyValue "aggregate" "order"]⟩] := by decide
  have horder : eventAttrs orderId.attrs = [⟨.list (.ofIdent "event") [.aggregateId]⟩] := by decide
  have htotal : eventAttrs totalCents.attrs = [] := rfl
  refine ⟨rfl, ?_, ?_, by decide, by decide, ?_, by decide, List.mem_cons_self, by decide,
    isUuidType_iff.1 (by decide)⟩
  · rw [hstruct]
    simp [Attribute.ListForm]
  · rw [eventEntries, hstruct]
    exact List.Perm.refl _
  · simp [horder, htotal, Attribute.ListForm]

/-- The two attributes of `orderPlaced` give its instance, whatever its doc comment says. -/
theorem expandDomainEvent_grammar_orderPlaced :
    ∃ item, expandDomainEvent orderPlaced = .ok item ∧
      item.domainEvent.kind = "order.placed@v1" ∧ item.domainEvent.aggregateType = "order" ∧
      (∀ self, item.domainEvent.aggregateId self = self "order_id") ∧
      expandDomainEvent orderPlaced.eventOnly = expandDomainEvent orderPlaced := by
  obtain ⟨haccept, himpl, hother⟩ := expandDomainEvent_grammar orderPlaced
  obtain ⟨item, hitem⟩ := haccept.2 ⟨_, _, _, _, orderPlaced_grammar⟩
  obtain ⟨-, hkind, haggregate, hid⟩ := himpl _ _ _ _ item orderPlaced_grammar hitem
  exact ⟨item, hitem, hkind, haggregate, hid, hother orderPlaced.eventOnly (by decide)⟩

end OutboxPublisher.Derive
