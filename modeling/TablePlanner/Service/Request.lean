import TablePlanner.Service.Address
import TablePlanner.Service.Reply

/-! A request that fits no action is rejected by its status alone: 404 for an unknown address, 405
for a method that the route does not take, 415 for a body that is missing, 400 for one that is no
JSON or an address that is no text, 422 for JSON of another shape. -/
namespace TablePlanner.Service
open Json
open Document (field optionalField)

structure Request where
  method : String
  target : String
  body : Option String
deriving DecidableEq, Repr

def readGenerate : Reader Action :=
  Reader.map (fun (prompt, file) => .generate prompt file) <| Document.toRecord
    [field "prompt" Document.toText fun x r => (x, r.2),
     optionalField "filename" (Document.toOption Document.toText) fun x r => (r.1, x)]
    ("", none)

def readExecute : Reader Action :=
  Reader.map (fun (prompt, file) => .execute prompt file) <| Document.toRecord
    [field "prompt" Document.toText fun x r => (x, r.2),
     field "filename" Document.toText fun x r => (r.1, x)]
    ("", "")

def readValidate : Reader Action :=
  Reader.map .validate <| Document.toRecord [field "prompt" Document.toText fun x _ => x] ""

def readGeneratePlan : Reader Action :=
  Reader.map (fun (prompt, files) => .generatePlan prompt files) <| Document.toRecord
    [field "prompt" Document.toText fun x r => (x, r.2),
     optionalField "file_ids" Document.toTexts fun x r => (r.1, x)]
    ("", [])

def readExecutePlan : Reader Action :=
  Reader.map (fun (plan, files) => .executePlan plan files) <| Document.toRecord
    [field "plan" Wire.plan fun x r => (x, r.2),
     optionalField "file_ids" Document.toTexts fun x r => (r.1, x)]
    (Plan.empty false, [])

def readUpload (name : String) : Reader Action :=
  Reader.map (.upload name) (Document.toList Document.toValue)

def Fault.status : Fault → Nat
  | .malformed => 400
  | .misshapen => 422

/-- The action of a body, whose text counts up to the end of its first value. -/
def readBody (read : Reader Action) (body : Option String) : Except Nat Action :=
  match body with
  | none => .error 415
  | some text =>
    match readLeading read text with
    | .ok action => .ok action
    | .error fault => .error (Fault.status fault)

inductive Route where
  | post (read : Reader Action)
  | get (action : Action)
  | table (name : List Char)

def route? (path : String) : Option Route :=
  match path with
  | "/smart-transform/generate" => some (.post readGenerate)
  | "/smart-transform/execute" => some (.post readExecute)
  | "/smart/validate" => some (.post readValidate)
  | "/smart/plan/generate" => some (.post readGeneratePlan)
  | "/smart/plan/execute" => some (.post readExecutePlan)
  | "/tables" => some (.get .tables)
  | "/lineage" => some (.get .lineage)
  | "/metrics" => some (.get .metrics)
  | "/health" => some (.get .health)
  | path =>
    let lead := "/tables/".toList
    let name := path.toList.drop lead.length
    if lead.isPrefixOf path.toList ∧ !name.isEmpty ∧ !name.contains '/' then some (.table name)
    else none

def wantsMarkdown (query : List Char) : Except Nat Bool :=
  let formats := (Address.queryItems query).filter fun (name, _) =>
    Address.decodeQuery? name == some "format"
  match formats with
  | [] => .ok false
  | [(_, value)] => .ok (Address.decodeQuery? value == some "markdown")
  | _ => .error 400

def tableAction (method : String) (name query : List Char) (body : Option String) :
    Except Nat Action :=
  if method = "GET" ∨ method = "HEAD" then
    match Address.decode? name with
    | none => .error 400
    | some name => do return .table name (← wantsMarkdown query)
  else if method = "POST" then
    match Address.decode? name with
    | none => .error 400
    | some name => readBody (readUpload name) body
  else .error 405

def action (r : Request) : Except Nat Action :=
  match Address.locate? r.target.toList with
  | none => .error 404
  | some (path, query) =>
    match route? (String.ofList path) with
    | none => .error 404
    | some (.post read) => if r.method = "POST" then readBody read r.body else .error 405
    | some (.get action) =>
      if r.method = "GET" ∨ r.method = "HEAD" then .ok action else .error 405
    | some (.table name) => tableAction r.method name query r.body

/-- The state after a request and what came of it. A rejected request changes nothing. -/
def serve (s : State) (r : Request) : State × Result :=
  match action r with
  | .error status => (s, .rejected status)
  | .ok a =>
    match act s a with
    | (s, .ok reply) => (s, .replied reply)
    | (s, .error e) => (s, .failed e)

def respond (s : State) (r : Request) : State × Response :=
  let (s, result) := serve s r
  (s, if r.method = "HEAD" then result.response.headOnly else result.response)

def respondAll (s : State) : List Request → State × List Response
  | [] => (s, [])
  | r :: rs =>
    let (s, response) := respond s r
    let (s, responses) := respondAll s rs
    (s, response :: responses)

end TablePlanner.Service
