import BaseLib.Library.Events
import BaseLib.Library.Properties
import BaseLib.Library.Queries
import BaseLib.Library.Texts
import BaseLib.Library.Threads

namespace BaseLib.Library.Methods

def abstractMembers (type : String) : Members :=
  let refused : Member := .variadic 0 fun _ => misuse .abstractMember
  match type with
  | "IDisposable" => [("Dispose", refused)]
  | "IEnumerator" => [("Dispose", refused), ("MoveNext", refused)]
  | "IEnumerable" => [("GetEnumerator", refused)]
  | "IFormatProvider" => [("GetFormat", refused)]
  | "WebClient" => [("DownloadString", .planned "WebClient.DownloadString")]
  | "EventHandler" => Events.handlerMembers
  | _ => []

def cursorMember (self : Value) : Members := [("GetEnumerator", .nullary (newCursor self))]

def own (id : Nat) (o : Object) : Members :=
  let self : Value := .ref id
  match o with
  | .plain "TextReader" | .plain "Stream" | .memory _ | .binaryWriter _ | .writer _ _ | .reader _ =>
    Streams.members id o
  | .plain type => abstractMembers type
  | .nullable v => Objects.nullableMembers v
  | .timeSpan t => Times.spanMembers self t
  | .dateTime d => Times.timeMembers self d
  | .list kind storage => Collections.listMembers id kind storage ++ cursorMember self
  | .hashSet members => Collections.setMembers id members ++ cursorMember self
  | .dictionary entries => Collections.dictionaryMembers id entries ++ cursorMember self
  | .arrayView _ | .sequence _ => cursorMember self
  | .groups members names => Patterns.groupsMembers members names ++ cursorMember self
  | .cursor _ => Collections.cursorMembers id
  | .symbols _ => Objects.formatMembers self
  | .culture _ numberFormat => Objects.formatMembers numberFormat
  | .builder _ => Texts.builderMembers id
  | .encoding code => Environment.encodingMembers code
  | .event listeners => Events.members id listeners
  | .regex r _ => Patterns.regexMembers r
  | .match_ m _ => Patterns.matchMembers self m
  | .thread _ _ => Threads.members
  | _ => []

def of (id : Nat) (o : Object) : Members :=
  own id o ++ if o.isRooted then Objects.common (.ref id) o else []

def call (self : Value) (name : String) (args : List Value) : Action Value := do
  match self, (← get).object? self with
  | .ref id, some o =>
    match (of id o).lookup name with
    | some m => m.call args
    | none => do apply (← Properties.read self name) args
  | _, _ => misuse .noSuchMember

end BaseLib.Library.Methods
