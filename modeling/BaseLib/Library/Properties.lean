import BaseLib.Library.Environment
import BaseLib.Library.Objects
import BaseLib.Library.Patterns
import BaseLib.Library.Times
import BaseLib.Surface.Reference
import BaseLib.Text.Slice

namespace BaseLib.Library.Properties

def count (s : Session) (v : Value) : Value := ((s.length? v).map fun (n : Nat) => Value.int n).getD .null

def known? (s : Session) (self : Value) (o : Object) (name : String) : Option Value :=
  match o, name with
  | .typeName n, "Name" => some (.ofCodes n)
  | .nullable v, "Value" => some v
  | .nullable v, "HasValue" => some (.bool (v != .null))
  | .pair k _, "Key" => some k
  | .pair _ v, "Value" => some v
  | .timeSpan t, name => Times.spanProperty? t name
  | .dateTime d, name => Times.timeProperty? d name
  | .point x _, "x" => some (.int x)
  | .point _ y, "y" => some (.int y)
  | .error cause, name => Objects.errorProperty? cause name
  | .list _ _, "Count" | .hashSet _, "Count" | .dictionary _, "Count" | .groups _ _, "Count" =>
    some (count s self)
  | .cursor c, "State" => some (.symbol (.cursorState c.state))
  | .symbols x, name => Objects.symbolProperty? x name
  | .culture n _, "Name" => some n
  | .culture _ f, "NumberFormat" => some f
  | .builder b, "Length" => some (.int b.length)
  | .writer (.stream stream) _, "BaseStream" => some stream
  | .memory b, "Length" => some (.int b.length)
  | .memory b, "Position" => some (.int b.position)
  | .binaryWriter stream, "BaseStream" => some stream
  | .encoding code, "WebName" => some (.text (Datum.webName code))
  | .propertyChanged n, "PropertyName" => some n
  | .regex _ options, "Options" => some options
  | .match_ _ groups, "Groups" => some (.ref groups)
  | .match_ m _, name => Patterns.groupProperty? m.whole name
  | .group g, name => Patterns.groupProperty? g name
  | .thread number _, "ManagedThreadId" => some (.int number)
  | .thread _ n, "Name" => some n
  | .options o, name => Environment.optionProperty? o name
  | _, _ => none

def read (self : Value) (name : String) : Action Value := do
  let s ← get
  match s.object? self with
  | none => misuse .noSuchMember
  | some o =>
    match known? s self o name with
    | some v => pure v
    | none =>
      match o, name with
      | .dictionary entries, "Keys" => newListOf .keys (entries.values.map (·.1))
      | .dictionary entries, "Values" => newListOf .values (entries.values.map (·.2))
      | .dateTime d, "Date" => alloc (.dateTime d.date)
      | .dateTime d, "TimeOfDay" => newSpan (TimeSpan.ofTicks d.timeOfDay)
      | .cursor c, "Current" => ofResult (currentOf c)
      | .plain "IEnumerator", "Current" => misuse .abstractMember
      | .writer _ newLine, "NewLine" => Streams.lineEndOf newLine
      | _, _ => misuse .noSuchMember

/-- The object with one of its properties set; none if the property is not its own. -/
def withProperty? (o : Object) (name : String) (v : Value) : Option (Except Fault Object) :=
  match o, name, v with
  | .options _, _, _ => some (.error Misuse.fixedOption)
  | .typeName _, "Name", v => v.codes?.map fun n => .ok (.typeName n)
  | .nullable _, "Value", v => some (.ok (.nullable v))
  | .pair _ x, "Key", v => some (.ok (.pair v x))
  | .pair k _, "Value", v => some (.ok (.pair k v))
  | .symbols x, name, .text t =>
    (Objects.setSymbol? x name (String.ofList t)).map fun x => .ok (.symbols x)
  | .culture _ f, "Name", v => some (.ok (.culture v f))
  | .culture n _, "NumberFormat", v => some (.ok (.culture n v))
  | .writer target _, "NewLine", v => some (.ok (.writer target v))
  | .writer (.stream _) newLine, "BaseStream", v => some (.ok (.writer (.stream v) newLine))
  | .binaryWriter _, "BaseStream", v => some (.ok (.binaryWriter v))
  | .propertyChanged _, "PropertyName", v => some (.ok (.propertyChanged v))
  | .thread number _, "Name", v => some (.ok (.thread number v))
  | .thread _ n, "ManagedThreadId", .int number => some (.ok (.thread number.toNat n))
  | .builder b, "Length", v =>
    some (match v.asInt? with
      | some n => (b.setLength n).map .builder
      | none => .error Misuse.wrongType)
  | .memory b, "Position", v =>
    some (match v.asInt? with
      | some n => ((b.setPosition n).mapError Fault.failure).map .memory
      | none => .error Misuse.wrongType)
  | _, _, _ => none

def hasProperty (typeName name : String) : Bool :=
  (Surface.declaredOf typeName).any fun d => d.name == name && d.kind == .property

/-- Sets a property. One that can only be read is refused; a name that nothing uses is accepted. -/
def write (self : Value) (name : String) (v : Value) : Action Unit := do
  match ← objectOf self with
  | (id, o) =>
    match withProperty? o name v with
    | some r => assign id (← ofExcept r)
    | none =>
      match o with
      | .array _ | .tuple _ | .map _ | .generator _ _ => misuse .noSuchMember
      | o => if hasProperty o.type name then misuse .noSuchMember else pure ()

end BaseLib.Library.Properties
