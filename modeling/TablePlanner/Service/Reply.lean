import TablePlanner.Service.Action

namespace TablePlanner
open Json

namespace State

def Generated.toJson (g : Generated) : Value :=
  .object (g.proposal.plan.diagram.members ++
    [("previewData", .array g.preview), ("plan", g.proposal.plan.toJson),
     ("validation", g.proposal.validation.toJson),
     ("fingerprint", .string g.proposal.plan.fingerprint)])

def diagnosticsJson (trace : List Diagnostic) : Value := .array (trace.map (·.toJson))

def Executed.toJson (e : Executed) : Value :=
  .object [("success", .bool true), ("outputFilename", .string e.stored.name),
    ("previewData", .array e.preview), ("plan", e.proposal.plan.toJson),
    ("validation", e.proposal.validation.toJson), ("diagnostics", diagnosticsJson e.trace)]

end State

namespace Service

def planPreviewRows : Nat := 20

def planJson (p : Plan) : Value := .object [("success", .bool true), ("plan", p.toJson)]

def resultJson (t : Table) : Value :=
  .object [("columns", .strings t.columns), ("data", .array (t.head planPreviewRows).toRecords)]

/-- The results by identifier. Of two with one identifier the later is shown. -/
def resultsJson (results : List (String × Table)) : Value :=
  .object (results.foldl (fun held r => putMember r.1 (resultJson r.2) held) [])

def outcomeJson (o : Outcome) : Value :=
  .object [("success", .bool true), ("results", resultsJson o.results),
    ("diagnostics", State.diagnosticsJson o.trace)]

def uploadJson (name : String) (t : Table) : Value :=
  .object [("success", .bool true), ("name", .string name), ("rows", .nat t.height),
    ("columns", .strings t.columns)]

def entryJson (entry : String × Table) : Value :=
  .object [("name", .string entry.1), ("rows", .nat entry.2.height),
    ("columns", .strings entry.2.columns)]

def tablesJson (entries : List (String × Table)) : Value :=
  .object [("tables", .array (entries.map entryJson))]

def errorJson (e : ServiceError) : Value := .object [("error", .string e.message)]

inductive Response where
  | answer (status : Nat) (type body : String)
  | rejection (status : Nat)
deriving DecidableEq, Repr

def jsonType : String := "application/json"

def plainType : String := "text/plain; charset=utf-8"

def markdownType : String := "text/markdown; charset=utf-8"

def expositionType : String := "text/plain; version=0.0.4; charset=utf-8"

def json (status : Nat) (v : Value) : Response := .answer status jsonType v.render

def Reply.response : Reply → Response
  | .generated g => json 200 g.toJson
  | .executed e => json 200 e.toJson
  | .validated v => json 200 v.toJson
  | .planned p => json 200 (planJson p)
  | .ran o => json 200 (outcomeJson o)
  | .uploaded name t => json 201 (uploadJson name t)
  | .tables entries => json 200 (tablesJson entries)
  | .catalog entry true => .answer 200 markdownType entry.markdown
  | .catalog entry false => json 200 entry.toJson
  | .lineage g => json 200 g.toJson
  | .metrics m => .answer 200 expositionType m.text
  | .health => .answer 200 plainType "OK"

inductive Result where
  | rejected (status : Nat)
  | failed (error : ServiceError)
  | replied (reply : Reply)

def Result.response : Result → Response
  | .rejected status => .rejection status
  | .failed e => json e.status (errorJson e)
  | .replied reply => reply.response

def Response.headOnly : Response → Response
  | .answer status type _ => .answer status type ""
  | r => r

end Service
end TablePlanner
