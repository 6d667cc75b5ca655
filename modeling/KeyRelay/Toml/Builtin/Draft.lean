import KeyRelay.Toml.Value

/-! # Documents under construction

While a document is carried out, a table keeps how it came about, which decides
whether a later header or key may still add to it. A value that is written in
one place, also an inline table, is finished. -/
set_option autoImplicit false

namespace KeyRelay.Toml

/-- How a table came about: by its own header, by the header of a table below
it, or by a dotted key. -/
inductive Origin
  | header
  | implied
  | dotted
  deriving DecidableEq, Repr

/-- Whether the table was never written as one, so that dotted keys may add to it. -/
def Origin.isImplicit : Origin → Bool
  | .implied | .dotted => true
  | .header => false

inductive Node
  | value (value : Value)
  | table (origin : Origin) (entries : List (String × Node))
  /-- The tables of an array header, the last of which is being filled. -/
  | tables (elements : List (List (String × Node)))

abbrev Draft := List (String × Node)

namespace Draft

def node? (draft : Draft) (key : String) : Option Node :=
  List.lookup key draft

def replace (draft : Draft) (key : String) (node : Node) : Draft :=
  draft.map fun entry => if entry.1 = key then (key, node) else entry

def append (draft : Draft) (key : String) (node : Node) : Draft :=
  draft ++ [(key, node)]

/-- Changes the last table of an array of tables. -/
def updateLast (effect : Draft → Option Draft) : List Draft → Option (List Draft)
  | [] => none
  | [last] => (effect last).map fun changed => [changed]
  | first :: rest => (updateLast effect rest).map fun changed => first :: changed

/-- Sets a value that a dotted key names, creating the tables on the way. The
flag says whether the table at hand takes keys: the one the key is written in
does, and so does one that a dotted key created. -/
def assign (accepting : Bool) : List String → Value → Draft → Option Draft
  | [], _, _ => none
  | [key], value, draft =>
    if accepting && (draft.node? key).isNone then some (draft.append key (.value value)) else none
  | key :: rest, value, draft =>
    match draft.node? key with
    | none => (assign true rest value []).map fun below => draft.append key (.table .dotted below)
    | some (.table origin below) =>
      if origin.isImplicit then
        (assign (origin == .dotted) rest value below).map fun changed =>
          draft.replace key (.table origin changed)
      else none
    | some (.tables elements) =>
      (updateLast (assign false rest value) elements).map fun changed =>
        draft.replace key (.tables changed)
    | some (.value _) => none

/-- Changes the table that a header path names, creating implied tables on the
way. Of an array of tables the last one is meant. -/
def modifyAt : List String → (Draft → Option Draft) → Draft → Option Draft
  | [], effect, draft => effect draft
  | key :: rest, effect, draft =>
    match draft.node? key with
    | none => (modifyAt rest effect []).map fun below => draft.append key (.table .implied below)
    | some (.table origin below) =>
      (modifyAt rest effect below).map fun changed => draft.replace key (.table origin changed)
    | some (.tables elements) =>
      (updateLast (modifyAt rest effect) elements).map fun changed =>
        draft.replace key (.tables changed)
    | some (.value _) => none

/-- Opens the table of a header, new or so far only implied by others. -/
def openTable (key : String) (draft : Draft) : Option Draft :=
  match draft.node? key with
  | none => some (draft.append key (.table .header []))
  | some (.table .implied below) => some (draft.replace key (.table .header below))
  | some _ => none

/-- Opens another table of an array header. -/
def openElement (key : String) (draft : Draft) : Option Draft :=
  match draft.node? key with
  | none => some (draft.append key (.tables [[]]))
  | some (.tables elements) => some (draft.replace key (.tables (elements ++ [[]])))
  | some _ => none

end Draft

mutual

def Node.finish : Node → Value
  | .value value => value
  | .table _ entries => .table (Draft.finish entries)
  | .tables elements => .array (finishAll elements)

/-- The table of a document, without how its parts came about. -/
def Draft.finish : Draft → Table
  | [] => []
  | (key, node) :: rest => (key, node.finish) :: Draft.finish rest

def finishAll : List Draft → List Value
  | [] => []
  | entries :: rest => .table (Draft.finish entries) :: finishAll rest

end

end KeyRelay.Toml
