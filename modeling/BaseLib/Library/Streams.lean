import BaseLib.Bytes.Binary
import BaseLib.Library.Member

namespace BaseLib.Library.Streams

def bytesOf : List Value → Except Misuse (List Nat)
  | [] => .ok []
  | v :: vs =>
    match v.asInt? with
    | none => .error .wrongType
    | some n =>
      match ByteBuffer.byte? n with
      | none => .error .badValue
      | some b => do pure (b :: (← bytesOf vs))

def needBytes (items : List Value) : Action (List Nat) :=
  ofExcept ((bytesOf items).mapError .misuse)

/-- The bytes of anything that can be iterated; a number stands for as many zero bytes. -/
def rawBytes (v : Value) : Action (List Nat) := do
  match v.asInt? with
  | some n =>
    if n < 0 then misuse .badValue
    else if Word.maxSize < n.toNat then misuse .tooLarge
    else pure (List.replicate n.toNat 0)
  | none =>
    match v, (← get).object? v with
    | .text _, _ | .broken _, _ => misuse .wrongType
    | _, some (.array items) | _, some (.tuple items) => needBytes items
    | v, _ => do needBytes (← iterated v)

/-- Writes bytes to a stream, or through a binary writer to the stream behind it. -/
def sendAt : Nat → Value → List Nat → Action Unit
  | 0, _, _ => misuse .tooDeep
  | depth + 1, stream, data => do
    match stream, (← get).object? stream with
    | .ref id, some (.memory b) =>
      assign id (.memory (← ofExcept ((b.write data).mapError .misuse)))
    | _, some (.plain "Stream") => fail .unsupported
    | _, some (.binaryWriter inner) => sendAt depth inner data
    | _, _ => misuse .noSuchMember

def send (stream : Value) (data : List Nat) : Action Unit := do
  sendAt (← get).depth stream data

def flushAt : Nat → Value → Action Unit
  | 0, _ => misuse .tooDeep
  | depth + 1, v => do
    match (← get).object? v with
    | some (.memory _) | some (.plain "Stream") => pure ()
    | some (.binaryWriter stream) | some (.writer (.stream stream) _) => flushAt depth stream
    | some (.writer _ _) => pure ()
    | _ => misuse .noSuchMember

def flush (v : Value) : Action Value := do
  flushAt (← get).depth v
  done

def sendByte (stream v : Value) : Action Value := do
  match (← get).object? stream with
  | some (.memory _) | some (.plain "Stream") | some (.binaryWriter _) =>
    send stream (← needBytes [v])
    done
  | _ => misuse .noSuchMember

def newMemory (initial : Value) : Action Value := do
  let bytes ← if (← get).truthy initial then rawBytes initial else pure []
  alloc (.memory (ByteBuffer.ofBytes bytes))

def rangeOf (buffer offset count : Value) : Action (Nat × Nat) := do
  notNull buffer "buffer"
  let length ← if count == .null then lengthOf buffer else pure 0
  let offset ← needInt offset
  let count ← if count == .null then pure (length - offset : Int) else needInt count
  if offset < 0 ∨ count < 0 then fail .boundsOutside
  match ByteBuffer.range? (← lengthOf buffer) offset (some count) with
  | some r => pure r
  | none => fail .boundsOutside

def writeRange (self : Nat) (buffer offset count : Value) : Action Value := do
  let (start, n) ← rangeOf buffer offset count
  match (← get).object? buffer with
  | some (.array items) | some (.tuple items) =>
    match bytesOf ((items.drop start).take n) with
    | .ok data =>
      send (.ref self) data
      done
    | .error .badValue => fail .byteOutside
    | .error e => misuse e
  | _ => misuse .wrongType

def memoryMembers (self : Nat) (b : ByteBuffer) : Members :=
  [("Write", .ternary (writeRange self) [.int 0, .null]),
    ("WriteByte", .unary (sendByte (.ref self))),
    ("Flush", .nullary done),
    ("Dispose", .nullary done),
    ("ToArray", .nullary (newArray (b.bytes.map fun (n : Nat) => .int n)))]

def streamMembers (self : Nat) : Members :=
  [("Write", .ternary (fun _ _ _ => fail .unsupported) [.int 0, .null]),
    ("WriteByte", .unary (sendByte (.ref self))),
    ("Flush", .nullary done),
    ("Dispose", .nullary done)]

def typeNameOf (s : Session) (v : Value) : String :=
  match v with
  | .null => "NoneType"
  | .symbol x => x.typeName
  | v => ((s.object? v).map (·.type)).getD ""

def binaryForm (v : Value) : Action (List Nat) := do
  match v with
  | .bool b => pure (Binary.ofBool b)
  | .double d => pure (Binary.ofDouble d)
  | .text t => pure (Binary.ofText t)
  | .broken _ => misuse .unencodable
  | v =>
    match v.integer? with
    | some n => ofResult (Binary.ofInt n)
    | none =>
      let s ← get
      match s.object? v with
      | some (.array items) => needBytes items
      | _ => fail (.unwritable (typeNameOf s v))

def binaryMembers (self : Nat) (stream : Value) : Members :=
  [("Write", .unary fun v => do
      send stream (← binaryForm v)
      done),
    ("WriteByte", .unary (sendByte stream)),
    ("Flush", .nullary (flush (.ref self))),
    ("Dispose", .nullary (flush (.ref self)))]

def newBinaryWriter (output _encoding : Value) : Action Value := do
  notNull output "output"
  alloc (.binaryWriter output)

def lineEndOf (newLine : Value) : Action Value := do
  if newLine == .null then do pure (.ofCodes (← readOptions).newLine) else pure newLine

def encodable (codes : List Nat) : Action (List Char) :=
  if codes.all Text.isScalar then pure (Text.charsOf codes) else misuse .unencodable

def emit (target : WriterTarget) (codes : List Nat) : Action Unit := do
  match target with
  | .nowhere => fail .unsupported
  | .builder id => do assign id (.builder (((← get).buffer id).push codes))
  | .stream stream => do send stream (Encoding.utf8.encode (← encodable codes))
  | .host stream =>
    let t ← encodable codes
    if stream = "stdout".toList then modify fun s => { s with stdout := s.stdout ++ t }
    else if stream = "stderr".toList then modify fun s => { s with stderr := s.stderr ++ t }
    else misuse .noSuchMember

def writtenText (v : Value) (args : List Value) : Action (List Nat) := do
  ofExcept ((← get).written v args)

def write (target : WriterTarget) (args : List Value) : Action Value := do
  emit target (← writtenText (args.headD .null) (args.drop 1))
  done

def writeLine (target : WriterTarget) (newLine : Value) (args : List Value) : Action Value := do
  let t ← writtenText (args.headD .null) (args.drop 1)
  let stop ← needCodes (← lineEndOf newLine)
  emit target (t ++ stop)
  done

def writerMembers (self : Nat) (target : WriterTarget) (newLine : Value) : Members :=
  [("Write", .variadic 1 (write target)),
    ("WriteLine", .variadic 0 (writeLine target newLine)),
    ("Flush", .nullary (flush (.ref self))),
    ("Dispose", .nullary (flush (.ref self)))] ++
  match target with
  | .builder id => [("GetStringBuilder", .nullary (pure (.ref id)))]
  | _ => []

def newWriter (target : WriterTarget) : Action Value := alloc (.writer target .null)

def newStringWriter (builder : Value) : Action Value := do
  match builder with
  | .null =>
    match ← alloc (.builder .empty) with
    | .ref id => newWriter (.builder id)
    | _ => misuse .wrongType
  | builder =>
    match ← objectOf builder with
    | (id, .builder _) => newWriter (.builder id)
    | _ => misuse .noSuchMember

def newStreamWriter (stream _encoding : Value) : Action Value := do
  match stream with
  | .text _ | .broken _ => fail .pathWriter
  | .null => fail (.nullArgument "stream")
  | stream => newWriter (.stream stream)

def newReader (s : Value) : Action Value := do
  notNull s "s"
  alloc (.reader ⟨← needText s⟩)

def readerMembers (self : Nat) (r : Text.Lines) : Members :=
  let codeOfNext : Value := (r.peek?.map fun c => Value.int c.toNat).getD (.int (-1))
  [("ReadLine", .nullary do
      let (line, rest) := r.readLine?
      assign self (.reader rest)
      pure ((line.map Value.text).getD .null)),
    ("ReadToEnd", .nullary do
      let (t, rest) := r.readToEnd
      assign self (.reader rest)
      pure (.text t)),
    ("Peek", .nullary (pure codeOfNext)),
    ("Read", .nullary do
      assign self (.reader r.read?.2)
      pure codeOfNext),
    ("Dispose", .nullary done)]

def emptyReaderMembers : Members :=
  [("ReadLine", .nullary (fail .unsupported)),
    ("ReadToEnd", .nullary (fail .unsupported)),
    ("Dispose", .nullary done)]

def members (self : Nat) : Object → Members
  | .memory b => memoryMembers self b
  | .plain "Stream" => streamMembers self
  | .plain "TextReader" => emptyReaderMembers
  | .binaryWriter stream => binaryMembers self stream
  | .writer target newLine => writerMembers self target newLine
  | .reader r => readerMembers self r
  | _ => []

def onConsole (name : String) (args : List Value) : Action Value := do
  let s ← get
  match s.console, s.object? s.console with
  | .ref id, some o =>
    match (members id o).lookup name with
    | some m => m.call args
    | none => misuse .noSuchMember
  | _, _ => misuse .noSuchMember

def statics : Members :=
  [("Console.SetOut", .unary fun writer => do
      notNull writer "newOut"
      modify fun s => { s with console := writer }
      done),
    ("Console.Write", .variadic 1 (onConsole "Write")),
    ("Console.WriteLine", .variadic 0 fun args =>
      onConsole "WriteLine" (if args.isEmpty then [.null] else args)),
    ("Debug.WriteLine", .variadic 1 fun args => do
      let t ← encodable (← writtenText (args.headD .null) (args.drop 1))
      modify fun s => { s with log := s.log ++ [⟨"corlib.debug", "DEBUG", t⟩] }
      done)]

end BaseLib.Library.Streams
