import Wireform.Output.Builtin
import Wireform.Output.Site
import Wireform.Text.Case

/-!
# Structs, lists and maps

A struct is its members one after the other, those of its supertypes first. Each
member is resolved from the scope of the struct that declares it. As long as the
members before have a size that never varies, a member has an offset.

A list has a mask of 64 bits that says which of its members are present, so none
of them has an offset.

## Main definitions

* `constantName`: The name of a constant that belongs to a member.
* `supertypeChain`, `layout`: The members of a struct.
* `describeMembers`: The members with their offsets and sizes.
* `describeStruct`, `describeListDecl`, `describeMapDecl`: Descriptions.
-/

namespace Wireform

/-- The letters of a name in upper case, with an underscore between a lower case
    letter or a digit and an upper case letter. -/
def constantChars (afterLower : Bool) : List Char → List Char
  | [] => []
  | c :: rest =>
      (if Text.isUppercase c && afterLower then ['_'] else [])
        ++ Text.uppercase c ++ constantChars (Text.isLowercase c || c.isDigit) rest

/-- The name of a constant that belongs to a member. -/
def constantName (stem name : String) : String :=
  stem ++ String.ofList (constantChars false name.toList)

/-- A 64-bit word read as a signed number, which is what constants hold. -/
def signedWord (n : Nat) : Int :=
  Int.bmod n (2 ^ (64 : Nat))

/-- The structs from the given one upwards, each with the site its members are
    resolved from. `seen` are the structs on the way, and `steps` bounds their
    number: a chain with more steps than there are declarations meets one of them
    again. -/
def supertypeChain (site : Site) (steps : Nat) (seen : List String) (current : Site)
    (d : StructDecl) : Compiled (List (Site × StructDecl)) :=
  match d.supertype with
  | none => .ok [(current, d)]
  | some supertype => do
      let entry ← current.resolve supertype
      match entry.declaration with
      | .struct parent =>
          if entry.qualifiedName ∈ seen then site.invalid .recursiveSupertype
          else
            match steps with
            | 0 => site.invalid .recursiveSupertype
            | steps + 1 =>
                let chain ← supertypeChain site steps (entry.qualifiedName :: seen)
                  (site.inScope entry.scope) parent
                return (current, d) :: chain
      | _ => site.invalid (.supertypeNotStruct supertype)

/-- The members of a struct in the order of the layout, each with the site it is
    resolved from. -/
def layout (site : Site) (d : StructDecl) : Compiled (List (Site × Member)) := do
  let chain ← supertypeChain site site.table.entries.length [site.qualifiedName] site d
  -- the chain goes upwards, the layout starts at the top
  return chain.reverse.flatMap fun (owner, decl) => decl.members.map (owner, ·)

/-- The offset behind a field. -/
def nextOffset (offset size : Option Nat) : Compiled (Option Nat) :=
  match offset, size with
  | some offset, some size => some <$> Word.add offset size
  | _, _ => .ok none

/-- The descriptions of members that start at an offset. -/
def describeMembers (offset : Option Nat) : List (Site × Member) → Compiled (List FieldDescription)
  | [] => .ok []
  | (site, m) :: rest => do
      let field ← site.field m offset
      let next ← nextOffset offset field.size
      let fields ← describeMembers next rest
      return field :: fields

/-- A constant that is there only if its value is. -/
def optionalConstant (name : String) (value : Option Literal) : List ConstantDescription :=
  value.toList.map (ConstantDescription.mk name)

/-- The constants of a member of a struct. -/
def layoutConstants (f : FieldDescription) : List ConstantDescription :=
  optionalConstant (constantName "FIELD_OFFSET_" f.name)
      (f.offset.map fun n => .integer (signedWord n))
    ++ optionalConstant (constantName "FIELD_SIZE_" f.name)
      (f.size.map fun n => .integer (signedWord n))
    ++ optionalConstant (constantName "DEFAULT_" f.name) f.default

/-- The method that reads a member. -/
def accessorOf (f : FieldDescription) : Method :=
  { name := f.name, role := .accessor f.name, returns := f.valueIdentity.display }

/-- The method that writes the member at a position of the layout. -/
def setterOf (f : FieldDescription) (index : Nat) : Method :=
  { name := f.name, role := .setter f.name index
    params := [⟨"value", f.valueIdentity.display⟩], returns := builderResult }

/-- The methods that write members. -/
def settersOf (fields : List FieldDescription) : List Method :=
  fields.zipIdx.map fun (f, index) => setterOf f index

/-- The names of the members that may not be left out. -/
def requiredOf (fields : List FieldDescription) : List String :=
  (fields.filter (·.required)).map (·.name)

/-- The description of a struct. -/
def describeStruct (site : Site) (d : StructDecl) : Compiled TypeDescription := do
  let members ← layout site d
  let fields ← describeMembers (some 0) members
  let typeIdMethods : List Method :=
    if d.typeId.isSome then [{ name := "type_id", role := .typeId, returns := "u32" }] else []
  let reader := (site.reader "struct" .members).withMethods
    (typeIdMethods ++ fields.map accessorOf)
  return { reader with
      constants := optionalConstant "TYPE_ID" (d.typeId.map fun n => .integer n)
        ++ fields.flatMap layoutConstants
      fields }
    |>.withBuilder (settersOf fields) (requiredOf fields)

/-- The bytes of the mask that says which members of a list are present. -/
def maskSize : Nat := 8

/-- The size of a prefix, if the declaration may have a prefix of that width. -/
def prefixSize (site : Site) (width : Width) (allowed : List Width) : Compiled Nat :=
  if width ∈ allowed then .ok width.bytes else site.invalid (.unsupportedWidth width)

/-- The constants of the mask, which follows two prefixes of the given size. -/
def maskConstants (size : Nat) : List ConstantDescription :=
  [⟨"FIELD_OFFSET_BIT_MASK", .integer (2 * size : Nat)⟩,
    ⟨"FIELD_SIZE_BIT_MASK", .integer maskSize⟩]

/-- The constants of a member of a list at a position. -/
def indexConstants (f : FieldDescription) (index : Nat) : List ConstantDescription :=
  ⟨constantName "INDEX_" f.name, .integer (signedWord index)⟩
    :: optionalConstant (constantName "DEFAULT_" f.name) f.default

/-- The methods that read a member of a list: its value, and whether it is present
    if it may be left out. -/
def presentAccessors (f : FieldDescription) : List Method :=
  if f.required then [accessorOf f]
  else [accessorOf f, { name := "has_" ++ f.name, role := .presence f.name, returns := "bool" }]

/-- The description of a list. -/
def describeListDecl (site : Site) (d : ListDecl) : Compiled TypeDescription := do
  let size ← prefixSize site d.width [.eight, .thirtyTwo]
  if d.members.length > maskSize * 8 then
    site.invalid .tooManyMembers
  else
    let fields ← d.members.mapM (site.field · none)
    let reader := (site.reader "list" (.sequence size)).withMethods
      (sequenceReaders ++ fields.flatMap presentAccessors)
    return { reader with
        constants := maskConstants size
          ++ fields.zipIdx.flatMap fun (f, index) => indexConstants f index
        fields }
      |>.withBuilder (settersOf fields) (requiredOf fields)

/-- The description of a map. -/
def describeMapDecl (site : Site) (d : MapDecl) : Compiled TypeDescription := do
  let size ← prefixSize site d.width [.eight, .sixteen, .thirtyTwo]
  let key ← site.identityOf d.key
  let value ← site.identityOf d.value
  return { describeMap (site.reader "map" (.sequence size)) key.simpleName value.simpleName with
    constants := [⟨"KEY_TYPE", .text key.display⟩, ⟨"VALUE_TYPE", .text value.display⟩] }

end Wireform
