import BaseLib.Session.View

namespace BaseLib.Session

def doubleReport (d : Double) : Report := .record [("f", .text d.literal)]

def groupFields (type : String) (g : Regex.Group) : List (String × Report) :=
  [("obj", .ofString type), ("value", .text g.value), ("index", .ofInt g.index),
    ("length", .ofInt g.length), ("success", .bool g.success), ("name", .text g.name)]

def groupReport (g : Regex.Group) : Report := .record (groupFields "Group" g)

def groupsOf (s : Session) (members : Nat) : List Regex.Group :=
  (s.items members).filterMap fun v =>
    match s.object? v with
    | some (.group g) => some g
    | _ => none

def listing (type : String) (items : List Report) : Report :=
  .record [("obj", .ofString type), ("items", .list items)]

def reportAt (s : Session) : Nat → Value → Report
  | 0, _ => .ofString "..."
  | depth + 1, v =>
    match v with
    | .null => .null
    | .bool b => .bool b
    | .int n => .ofInt n
    | .double d => doubleReport d
    | .text t => .text t
    | .broken t => .codes t.codes
    | .symbol x => .record [("enum", .ofString x.path)]
    | .day n => .record [("enum", .ofString ("DayOfWeek." ++ weekdayName n))]
    | .flags t bits => .record [("flags", .ofString t.name), ("n", .ofInt bits)]
    | .ref id =>
      match s.store[id]? with
      | none => .null
      | some o =>
        match o with
        | .array items => .list (items.map (reportAt s depth))
        | .typeName name => .record [("type", .codes name)]
        | .nullable x => .record [("nullable", reportAt s depth x)]
        | .pair k x => .record [("kv", .list [reportAt s depth k, reportAt s depth x])]
        | .timeSpan t => .record [("ts", .ofInt t.ticks)]
        | .dateTime d => .record [("dt", .ofInt d.ticks), ("kind", .ofString d.kind.name)]
        | .point x y => .record [("pt", .list [.ofInt x, .ofInt y])]
        | .list kind storage =>
          let items := (s.items storage).map (reportAt s depth)
          match kind with
          | .list | .stack => listing kind.typeName items
          | .keys | .values => listing kind.typeName (Report.sorted items)
        | .hashSet members =>
          listing "HashSet" (Report.sorted (members.values.map (reportAt s depth)))
        | .dictionary entries =>
          listing "Dictionary" (Report.sorted (entries.values.map fun (k, x) =>
            .list [reportAt s depth k, reportAt s depth x]))
        | .memory b =>
          .record [("obj", .ofString "MemoryStream"), ("position", .ofInt b.position),
            ("bytes", .list (b.bytes.map fun (n : Nat) => .ofInt n))]
        | .cursor c =>
          .record [("obj", .ofString c.kind.typeName), ("state", .ofString c.state.label)]
        | .group g => groupReport g
        | .groups members _ => listing "GroupCollection" ((s.groupsOf members).map groupReport)
        | .match_ m groups =>
          let members := match s.store[groups]? with
            | some (.groups members _) => s.groupsOf members
            | _ => []
          .record (groupFields "Match" m.whole ++ [("groups", .list (members.map groupReport))])
        | .options o =>
          .record [("new_line", .codes o.newLine), ("strict_math", .bool o.strictMath),
            ("trace_unported", .bool o.tracePlanned)]
        | o => .object o.type

def report (s : Session) (v : Value) : Report := s.reportAt s.depth v

def tellsItself : Object → Bool
  | .array _ | .list _ _ | .hashSet _ | .dictionary _ | .memory _ | .cursor _ => true
  | _ => false

end BaseLib.Session
