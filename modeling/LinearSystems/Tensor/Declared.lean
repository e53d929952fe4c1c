import LinearSystems.Tensor.Typed

/-!
# Arrays of a declared element type

An array may come with the name of its element type, with a format, or with a list of fields, and
then every element becomes one of that type. Each element of a type with repetitions brings its
dimensions to the shape of the array: single elements are repeated in them, but data with an array
in it repeats as a whole, from its last dimension on.
-/

namespace LinearSystems

namespace Datum

/-- The length of something that has elements. -/
def length : Datum → Except Fault Nat
  | .list items => .ok items.length
  | .text s => .ok s.length
  | .record fields => .ok fields.length
  | .array a =>
    match a.shape with
    | n :: _ => .ok n
    | [] => .error (.unreadable .noLengthOfArray)
  | .objects (n :: _) _ => .ok n
  | .objects [] _ => .error (.unreadable .noLengthOfArray)
  | d => .error (.unreadable (.noLength d.typeName))

/-- The elements of a list, or the characters of a text. -/
def sequence? : Datum → Option (List Datum)
  | .list items => some items
  | .text s => some (s.toList.map fun c => .text (String.ofList [c]))
  | _ => none

/-- What a type that is named by a datum is as a field. Nothing stands for double precision. -/
def fieldContent : Datum → Except Fault FullDeclaration
  | .null => .ok { declaration := .fixed (.real 64) }
  | .text name => do
    match ← Declared.ofName name with
    | .single d => return d
    | .compound fields => return { declaration := .fixed (.compound (Field.listText fields)) }
  | .list (d :: _) => .error (.unreadable (.noField d.literal))
  | .list [] => .ok { declaration := .fixed (.compound "[]") }
  | .record _ => .error (.unreadable .noFieldEntry)
  | d => .error (.unreadable (.noType d.literal))

/-- Adds a field of a name and a type to some fields. -/
def addField (fields : List Field) (name type : Datum) : Except Fault (List Field) := do
  let content ← type.fieldContent
  match name with
  | .text name =>
    if fields.any fun f => f.name == name then throw (.unreadable .repeatedField)
    return fields ++ [⟨name, content⟩]
  | _ => throw (.unreadable .noFieldName)

/-- The fields that a record declares, by the names and the types of all of them. Its other entries
    declare nothing. -/
def recordFields (entries : List (String × Datum)) : Except Fault (List Field) :=
  match (entries.lookup "names").bind sequence?, (entries.lookup "formats").bind sequence? with
  | some names, some types =>
    if types.length < names.length then .error (.unreadable .fieldCount)
    else (names.zip types).foldlM (fun fields (name, type) => addField fields name type) []
  | _, _ =>
    match entries with
    | [] => .ok []
    | (_, d) :: _ => d.length.bind fun _ => .error (.unreadable .noFieldEntry)

/-- What a datum declares; nothing leaves the type open. Fields are not declared by a list of other
    data. -/
def declared? : Datum → Except Fault (Option Declared)
  | .null => .ok none
  | .text name => (Declared.ofName name).map some
  | .list [] => .ok (some (.compound []))
  | .list (d :: _) => .error (.unreadable (.noField d.literal))
  | .record entries => (recordFields entries).map fun fields => some (.compound fields)
  | d => .error (.unreadable (.noType d.literal))

/-- The data of an array of bytes of an open size consists of arrays: anything else has no size. -/
def checkSizes (declaration : Declaration) (leaves : List Datum) : Except Fault Unit :=
  match leaves.find? fun d => !d.isArray with
  | some d =>
    if declaration = .anyRaw then .error (.unreadable (.noBytes true d.ownerName)) else .ok ()
  | none => .ok ()

mutual

/-- Whether there is an array in a datum. -/
def holdsArray : Datum → Bool
  | .array _ => true
  | .objects .. => true
  | .list items => anyHoldsArray items
  | _ => false

/-- Whether there is an array in some data. -/
def anyHoldsArray : List Datum → Bool
  | [] => false
  | item :: rest => holdsArray item || anyHoldsArray rest

end

mutual

/-- The datum with every text taken as the list of its characters, except for a single one. -/
def spelled : Datum → Datum
  | .text s => if s.length = 1 then .text s else .list ((Datum.text s).sequence?.getD [])
  | .list items => .list (allSpelled items)
  | d => d

/-- Some data with every text taken as the list of its characters. -/
def allSpelled : List Datum → List Datum
  | [] => []
  | item :: rest => spelled item :: allSpelled rest

end

/-- The nesting of a datum whose elements are of a declared type. -/
def nestingFor (declaration : Declaration) (d : Datum) : Except Fault Tensor.Nesting :=
  match Tensor.nesting (if declaration = .character then d.spelled else d) with
  | .ok N => .ok N
  | .error defect => .error (.unreadable (.notArray defect))

/-- The count of bytes that no array can reach. Dimensions of length zero are left out of it. -/
def bytesLimit : Nat := Nat.pow 2 63

/-- An array has to be of a shape that can be addressed. -/
def checkSize (elementBytes : Nat) (shape : List Nat) : Except Fault Unit :=
  if Tensor.maxRank < shape.length then .error (.unreadable (.rankBeyond Tensor.maxRank))
  else if bytesLimit ≤ elementBytes * volume (shape.filter (· != 0)) then
    .error (.unreadable .tooManyElements)
  else .ok ()

/-- An array of arbitrary data, each repeated in some dimensions. -/
def repeatedObjects (whole : Bool) (N : Tensor.Nesting) (repeats : List Nat) :
    Except Fault Datum :=
  let target := N.shape ++ repeats
  let items := N.leaves.map objectItem
  if !whole then
    .ok (.objects target (items.flatMap (List.replicate (volume repeats))))
  else if Tensor.spreadsTo N.shape target then
    .ok (.objects target (spreadOver N.shape target items.toArray))
  else .error (.unreadable (.notArray (.unfit N.shape target)))

/-- An array of a type with repetitions. -/
def ofRepeated (full : FullDeclaration) (d : Datum) : Except Fault Datum := do
  let N ← nestingFor (.fixed full.declaration.fieldType) d
  let target := N.shape ++ full.repeats
  checkSize full.declaration.byteCount target
  if full.declaration = .fixed .object then
    return ← repeatedObjects d.holdsArray N full.repeats
  let a ← TypedArray.ofElements full.declaration.fieldType N
  let filled ← if d.holdsArray then a.filling target else .ok (a.repeatIn full.repeats)
  return .array { filled with highByteFirst := full.highByteFirst }

/-- An array of a single type. -/
def ofSingle (full : FullDeclaration) (d : Datum) : Except Fault Datum := do
  if !full.repeats.isEmpty then
    return ← ofRepeated full d
  if full.declaration = .fixed .object then
    return ofObjects d
  let N ← nestingFor full.declaration d
  checkSizes full.declaration N.leaves
  let a ← TypedArray.ofElements (full.declaration.resolve N.leaves) N
  return .array { a with highByteFirst := full.highByteFirst }

/-- An array of a declared element type; without a declaration, of the type that follows from the
    elements. -/
def ofDeclared (declared d : Datum) : Except Fault Datum := do
  match ← declared.declared? with
  | none => d.asArray
  | some (.single full) => ofSingle full d
  | some (.compound fields) =>
    match Tensor.nesting d with
    | .error defect => throw (.unreadable (.notArray defect))
    | .ok N => return .array (← TypedArray.ofFields fields N)

end Datum

end LinearSystems
