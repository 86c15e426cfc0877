import OutboxPublisher.Event
import OutboxPublisher.Derive.Syntax

/-!
# The derive macro

`expandDomainEvent` as the macro computes it: the keys of the struct's `event` attributes, read over
the two options that the attributes share, then the marks on the fields. Its result is the text of
an `impl` block, kept as the names and literals that vary in it; `ItemImpl.domainEvent` is the
instance this text declares.
-/

namespace OutboxPublisher.Derive

/-- The generated `impl` block: its header, the literals in the bodies of `kind` and
`aggregate_type`, and the field in the body of `aggregate_id`. Reference: the `quote!` of
`expand_domain_event` (`outbox-publisher-derive/src/lib.rs:96`). -/
structure ItemImpl where
  implGenerics : String
  selfTy : Ident
  tyGenerics : String
  whereClause : String
  kind : String
  aggregate : String
  aggIdField : Ident
  deriving DecidableEq

/-- A value of the struct, by the identifiers in its fields. -/
abbrev StructValue := Ident → Uuid

/-- The instance that the generated block declares. Reference: the methods in the `quote!` of
`expand_domain_event` (`outbox-publisher-derive/src/lib.rs:101`). -/
@[reducible]
def ItemImpl.domainEvent (item : ItemImpl) : DomainEvent StructValue where
  kind := item.kind
  aggregateType := item.aggregate
  aggregateId self := self item.aggIdField

/-! ## The struct's attributes -/

/-- The keys read so far. Reference: the variables `kind` and `aggregate` of `parse_struct_attrs`
(`outbox-publisher-derive/src/lib.rs:115`). -/
structure StructAttrs where
  kind : Option String
  aggregate : Option String
  deriving DecidableEq

/-- `key = "…"`, where the key's `slot` is empty; `set` fills it. Reference: the first two branches
of the closure in `parse_struct_attrs` (`outbox-publisher-derive/src/lib.rs:124`). -/
def parseKey (key : Ident) (slot : Option String) (set : String → StructAttrs)
    (entry : ParseNestedMeta) : Except Error (StructAttrs × List Token) := do
  let value ← entry.value
  let (lit, rest) ← parseLit value
  match lit with
  | .str v =>
    if slot.isSome then
      .error (entry.error ("`" ++ key ++ "` specified more than once"))
    else if v.isEmpty then
      .error (entry.error ("`" ++ key ++ "` must not be empty"))
    else
      .ok (set v, rest)
  | .other _ => .error (entry.error ("`" ++ key ++ "` must be a string literal"))

/-- Reference: the closure in `parse_struct_attrs` (`outbox-publisher-derive/src/lib.rs:123`). -/
def structLogic (found : StructAttrs) (entry : ParseNestedMeta) :
    Except Error (StructAttrs × List Token) :=
  if entry.path.isIdent "kind" then
    parseKey "kind" found.kind (fun v => { found with kind := some v }) entry
  else if entry.path.isIdent "aggregate" then
    parseKey "aggregate" found.aggregate (fun v => { found with aggregate := some v }) entry
  else if entry.path.isIdent "aggregate_id" then
    .error (entry.error "`aggregate_id` is a field attribute, not a struct attribute")
  else
    .error (entry.error "unknown `#[event]` attribute key")

/-- The attribute belongs to this macro. Reference: `attr.path().is_ident("event")`
(`outbox-publisher-derive/src/lib.rs:119`). -/
def Attribute.isEvent (attr : Attribute) : Bool :=
  attr.path.isIdent "event"

/-- One attribute of the struct. Reference: the loop body of `parse_struct_attrs`
(`outbox-publisher-derive/src/lib.rs:118`). -/
def structAttr (found : StructAttrs) (attr : Attribute) : Except Error StructAttrs :=
  if !attr.isEvent then
    pure found
  else
    parseNestedMeta structLogic attr found

/-- The value of an option, or an error. Reference: `Option::ok_or_else`. -/
def okOrElse {α : Type} (o : Option α) (err : Error) : Except Error α :=
  match o with
  | some a => .ok a
  | none => .error err

/-- The literals of `kind` and `aggregate`. Reference: `parse_struct_attrs`
(`outbox-publisher-derive/src/lib.rs:114`). -/
def parseStructAttrs (ast : DeriveInput) : Except Error (String × String) := do
  let found ← ast.attrs.foldlM structAttr ⟨none, none⟩
  let kindVal ← okOrElse found.kind (.new (.ident ast.ident)
    "missing required `#[event(kind = \"...\")]` attribute")
  let aggregateVal ← okOrElse found.aggregate (.new (.ident ast.ident)
    "missing required `#[event(aggregate = \"...\")]` attribute")
  pure (kindVal, aggregateVal)

/-! ## The marked field -/

/-- Reference: the closure in `find_aggregate_id_field` (`outbox-publisher-derive/src/lib.rs:205`).
-/
def fieldLogic (isAggregateId : Bool) (entry : ParseNestedMeta) :
    Except Error (Bool × List Token) :=
  if entry.path.isIdent "aggregate_id" then
    if isAggregateId then
      .error (entry.error "`aggregate_id` specified more than once in the same `#[event(...)]`")
    else
      .ok (true, entry.input)
  else
    .error (entry.error "unknown `#[event]` key on field; only `aggregate_id` is valid here")

/-- One attribute of a field, over `field_marked` and the fields found so far. Reference: the inner
loop body of `find_aggregate_id_field` (`outbox-publisher-derive/src/lib.rs:200`). -/
def fieldAttr (field : Field) (state : Bool × List Field) (attr : Attribute) :
    Except Error (Bool × List Field) :=
  let (fieldMarked, found) := state
  if !attr.isEvent then
    pure (fieldMarked, found)
  else do
    let isAggregateId ← parseNestedMeta fieldLogic attr false
    if isAggregateId then
      if fieldMarked then
        .error (.new (.attribute attr)
          "`#[event(aggregate_id)]` specified more than once on the same field")
      else
        pure (true, found ++ [field])
    else
      pure (fieldMarked, found)

/-- One field, over the fields found so far. Reference: the outer loop body of
`find_aggregate_id_field` (`outbox-publisher-derive/src/lib.rs:198`). -/
def findInField (found : List Field) (field : Field) : Except Error (List Field) := do
  let (_, found) ← field.attrs.foldlM (fieldAttr field) (false, found)
  pure found

/-- The type is spelled `Uuid` or `uuid::Uuid`. Reference: `is_uuid_type`
(`outbox-publisher-derive/src/lib.rs:272`). -/
def isUuidType : Ty → Bool
  | .path none path =>
    match path.segments with
    | [only] => only.ident == "Uuid" && only.arguments.isEmpty
    | [crateSeg, tySeg] =>
      crateSeg.ident == "uuid" && crateSeg.arguments.isEmpty &&
        (tySeg.ident == "Uuid" && tySeg.arguments.isEmpty)
    | _ => false
  | _ => false

/-- Reference: `validate_uuid_field` (`outbox-publisher-derive/src/lib.rs:262`). -/
def validateUuidField (field : Field) : Except Error Unit :=
  if isUuidType field.ty then
    .ok ()
  else
    .error (.new (.ty field.ty) "`#[event(aggregate_id)]` field must be of type `Uuid`")

/-- The name of the one field marked as the aggregate's identifier. Reference:
`find_aggregate_id_field` (`outbox-publisher-derive/src/lib.rs:182`). -/
def findAggregateIdField (structIdent : Ident) : Fields → Except Error Ident
  | .named named => do
    let found ← named.foldlM findInField []
    match found with
    | [] => .error (.new (.ident structIdent)
        "no field marked `#[event(aggregate_id)]`; exactly one `Uuid` field must be annotated")
    | [field] =>
      validateUuidField field
      pure field.ident
    | _ :: second :: _ => .error (.new (.ident second.ident)
        "multiple fields marked `#[event(aggregate_id)]`; only one is allowed")
  | .unnamed _ | .unit => .error (.new (.ident structIdent)
      "`#[derive(DomainEvent)]` requires a struct with named fields")

/-- Expand `#[derive(DomainEvent)]`. Reference: `expand_domain_event`
(`outbox-publisher-derive/src/lib.rs:68`). -/
def expandDomainEvent (ast : DeriveInput) : Except Error ItemImpl :=
  match ast.data with
  | .enum _ => .error (.new .enumToken
      "`#[derive(DomainEvent)]` can only be applied to structs, not enums")
  | .union _ => .error (.new .unionToken
      "`#[derive(DomainEvent)]` can only be applied to structs, not unions")
  | .struct fields => do
    let (kind, aggregate) ← parseStructAttrs ast
    let aggIdField ← findAggregateIdField ast.ident fields
    pure ⟨ast.implGenerics, ast.ident, ast.tyGenerics, ast.whereClause, kind, aggregate, aggIdField⟩

end OutboxPublisher.Derive
