import TablePlanner.Service.State

namespace TablePlanner.Service
open Json

inductive Action where
  | generate (prompt : String) (file : Option String)
  | execute (prompt file : String)
  | validate (prompt : String)
  | generatePlan (prompt : String) (files : List String)
  | executePlan (plan : Plan) (files : List String)
  | upload (name : String) (records : List Value)
  | tables
  | table (name : String) (markdown : Bool)
  | lineage
  | metrics
  | health

inductive Reply where
  | generated (g : State.Generated)
  | executed (e : State.Executed)
  | validated (v : Prompt.Validation)
  | planned (p : Plan)
  | ran (o : Outcome)
  | uploaded (name : String) (t : Table)
  | tables (entries : List (String × Table))
  | catalog (entry : CatalogEntry) (markdown : Bool)
  | lineage (g : LineageGraph)
  | metrics (m : Metrics)
  | health

def reply (toReply : α → Reply) :
    State × Except ServiceError α → State × Except ServiceError Reply
  | (s, .ok a) => (s, .ok (toReply a))
  | (s, .error e) => (s, .error e)

def act (s : State) : Action → State × Except ServiceError Reply
  | .generate prompt file => reply .generated (s.generate prompt file)
  | .execute prompt file => reply .executed (s.execute prompt file)
  | .validate prompt =>
    let (s, validation) := s.validate prompt
    (s, .ok (.validated validation))
  | .generatePlan prompt files => reply .planned (s.generatePlan prompt files)
  | .executePlan plan files => reply .ran (s.executePlan plan files)
  | .upload name records => reply (.uploaded name) (s.upload name records)
  | .tables => (s, .ok (.tables s.registry.sorted))
  | .table name markdown => reply (.catalog · markdown) (s, s.catalog name)
  | .lineage => (s, .ok (.lineage s.lineage))
  | .metrics => (s, .ok (.metrics s.metrics))
  | .health => (s, .ok .health)

end TablePlanner.Service
