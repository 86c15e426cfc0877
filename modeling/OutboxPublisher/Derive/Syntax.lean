import Mathlib.Data.List.Basic

/-!
# The syntax a derive macro is given

The part of `syn`'s syntax tree that `#[derive(DomainEvent)]` reads. An attribute in list form is
kept as `parse_nested_meta` meets it: its comma-separated entries, each the path it begins with and
the tokens after that path up to the next comma. Text for which `syn` itself reports an error is the
entry `unexpected`, and errors of `syn` carry no text here.
-/

namespace OutboxPublisher.Derive

/-- An identifier, a raw one with its `r#`. Reference: `syn::Ident`. -/
abbrev Ident := String

/-- The arguments of a path segment. Reference: `syn::PathArguments`. -/
inductive PathArguments
  | none
  | angleBracketed (args : List String)
  | parenthesized (inputs : List String)
  deriving DecidableEq

/-- Nothing follows the identifier. Reference: `PathArguments::is_none`. -/
def PathArguments.isNone : PathArguments → Bool
  | .none => true
  | _ => false

/-- There is no argument, be it between angle brackets. Reference: `PathArguments::is_empty`. -/
def PathArguments.isEmpty : PathArguments → Bool
  | .none => true
  | .angleBracketed args => args.isEmpty
  | .parenthesized _ => false

/-- Reference: `syn::PathSegment`. -/
structure PathSegment where
  ident : Ident
  arguments : PathArguments
  deriving DecidableEq

/-- Reference: `syn::Path`. -/
structure Path where
  leadingColon : Bool
  segments : List PathSegment
  deriving DecidableEq

/-- The path that is one identifier. Reference: `From<Ident> for Path`. -/
def Path.ofIdent (ident : Ident) : Path :=
  ⟨false, [⟨ident, .none⟩]⟩

/-- The path is the given identifier alone. Reference: `Path::is_ident`. -/
def Path.isIdent (path : Path) (ident : Ident) : Bool :=
  match path.segments with
  | [segment] => !path.leadingColon && segment.arguments.isNone && segment.ident == ident
  | _ => false

/-- A type: a path, with the type it is qualified by if there is one, or any other type. Reference:
`syn::Type`. -/
inductive Ty
  | path (qself : Option String) (path : Path)
  | other (tokens : String)
  deriving DecidableEq

/-- A literal; of a string the value, of any other the text. Reference: `syn::Lit`. -/
inductive Lit
  | str (value : String)
  | other (text : String)
  deriving DecidableEq

/-- What `value` and `parse::<Lit>` tell apart in the tokens of an entry; a literal comes with its
sign. Reference: `syn::parse::ParseStream`. -/
inductive Token
  | eq
  | lit (lit : Lit)
  | other (text : String)
  deriving DecidableEq

/-- An entry of an attribute in list form. Reference: the loop of `syn::meta::parser`. -/
inductive Entry
  | nested (path : Path) (input : List Token)
  | unexpected (text : String)
  deriving DecidableEq

/-- The content of an attribute; a list stands between delimiters of any kind. Reference:
`syn::Meta`. -/
inductive Meta
  | path (path : Path)
  | list (path : Path) (entries : List Entry)
  | nameValue (path : Path) (value : String)
  deriving DecidableEq

/-- Reference: `syn::Attribute`. -/
structure Attribute where
  content : Meta
  deriving DecidableEq

/-- The path an attribute begins with. Reference: `Attribute::path`. -/
def Attribute.path (attr : Attribute) : Path :=
  match attr.content with
  | .path path => path
  | .list path _ => path
  | .nameValue path _ => path

/-- A field of a struct with named fields, whose identifier is there. Reference: `syn::Field` in
`syn::FieldsNamed`. -/
structure Field where
  attrs : List Attribute
  ident : Ident
  ty : Ty
  deriving DecidableEq

/-- Reference: `syn::Fields`. -/
inductive Fields
  | named (named : List Field)
  | unnamed (unnamed : List Ty)
  | unit
  deriving DecidableEq

/-- Reference: `syn::Data`. -/
inductive Data
  | struct (fields : Fields)
  | enum (variants : List Ident)
  | union (fields : List Field)
  deriving DecidableEq

/-- The item below a derive attribute; of its generics the three parts that `split_for_impl` takes
from them. Reference: `syn::DeriveInput`. -/
structure DeriveInput where
  attrs : List Attribute
  ident : Ident
  implGenerics : String
  tyGenerics : String
  whereClause : String
  data : Data
  deriving DecidableEq

/-- Where an error points. Reference: the first argument of `syn::Error::new_spanned`, and the span
of `ParseNestedMeta::error`. -/
inductive Span
  | enumToken
  | unionToken
  | ident (ident : Ident)
  | ty (ty : Ty)
  | attribute (attr : Attribute)
  | nested (path : Path)
  deriving DecidableEq

/-- An error of the macro, or one of `syn`'s parser. Reference: `syn::Error`. -/
inductive Error
  | new (span : Span) (message : String)
  | parse
  deriving DecidableEq

/-- What a closure passed to `parse_nested_meta` sees of an entry. Reference:
`syn::meta::ParseNestedMeta`. -/
structure ParseNestedMeta where
  path : Path
  input : List Token

namespace ParseNestedMeta

/-- An error at the entry. Reference: `ParseNestedMeta::error`. -/
def error (entry : ParseNestedMeta) (message : String) : Error :=
  .new (.nested entry.path) message

/-- What follows the `=` that comes next. Reference: `ParseNestedMeta::value`. -/
def value (entry : ParseNestedMeta) : Except Error (List Token) :=
  match entry.input with
  | .eq :: rest => .ok rest
  | _ => .error .parse

end ParseNestedMeta

/-- The literal that comes next, and what follows it. Reference: `ParseBuffer::parse::<Lit>`. -/
def parseLit (input : List Token) : Except Error (Lit × List Token) :=
  match input with
  | .lit lit :: rest => .ok (lit, rest)
  | _ => .error .parse

section
variable {σ : Type} (logic : σ → ParseNestedMeta → Except Error (σ × List Token))

/-- One entry, read by a closure over the state `s`; what the closure leaves must be followed by a
comma or be the end. Reference: the loop of `syn::meta::parser`. -/
def parseEntry (s : σ) : Entry → Except Error σ
  | .unexpected _ => .error .parse
  | .nested path input => do
    let (s, rest) ← logic s ⟨path, input⟩
    if rest.isEmpty then pure s else .error .parse

/-- The entries of an attribute in turn; an attribute in another form has none to give. Reference:
`Attribute::parse_nested_meta`. -/
def parseNestedMeta (attr : Attribute) (s : σ) : Except Error σ :=
  match attr.content with
  | .list _ entries => entries.foldlM (parseEntry logic) s
  | .path _ | .nameValue _ _ => .error .parse

end

end OutboxPublisher.Derive
