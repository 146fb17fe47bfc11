import TablePlanner.Execution.Run
import TablePlanner.Lineage.Tracker
import TablePlanner.Plan.Diagram
import TablePlanner.Plan.Wire
import TablePlanner.Service.Metrics
import TablePlanner.Service.Settings
import TablePlanner.Table.Catalog
import TablePlanner.Table.Registry

/-! Each action takes the stored tables, their lineage and the counters to a next state with a reply
or an error; after an error only the counters may have moved. -/
namespace TablePlanner

open Json

inductive ServiceError where
  | notFound (error : RegistryError)
  | noFiles
  | execution (error : ExecutionError)
  | invalidTable (error : TableError)
deriving Repr

namespace ServiceError

def status : ServiceError → Nat
  | notFound _ => 404
  | noFiles => 404
  | execution _ => 400
  | invalidTable _ => 400

def message : ServiceError → String
  | notFound error => error.message
  | noFiles => "No file ids given"
  | execution error => error.message
  | invalidTable error => "Invalid table: " ++ error.message

end ServiceError

structure State where
  settings : Settings
  registry : Registry
  lineage : LineageGraph
  metrics : Metrics

namespace State

def initial (settings : Settings) : State := ⟨settings, .empty, .empty, .empty⟩

def planner (s : State) : Prompt.Planner :=
  ⟨s.settings.engine.candidates, s.settings.engine.rules, Prompt.Detector.standard⟩

def countProposal (s : State) (p : Prompt.Planner.Proposal) : State :=
  { s with metrics := (s.metrics.recordValidation p.validation.isValid).recordPlan p.fired }

def countTransform (s : State) (outcome : TransformOutcome) : State :=
  { s with metrics := s.metrics.recordTransform outcome.name }

def countNoops (s : State) (count : Nat) : State :=
  { s with metrics := s.metrics.recordNoops count }

def run (s : State) (source : Table) (plan : Plan) : State × Except ServiceError Outcome :=
  match plan.run source with
  | .ok outcome => (s.countNoops outcome.trace.length, .ok outcome)
  | .error e => (s.countTransform .error, .error (.execution e))

def find (s : State) (name : String) : Except ServiceError Table :=
  match s.registry.get name with
  | .ok t => .ok t
  | .error e => .error (.notFound e)

def findFirst (s : State) : List String → Except ServiceError Table
  | [] => .error .noFiles
  | name :: _ => s.find name

structure Generated where
  proposal : Prompt.Planner.Proposal
  preview : List Value

def generateDemo (s : State) (prompt : String) : State × Generated :=
  let proposal := s.planner.propose prompt (Schema.ofColumns s.settings.engine.demoSchema)
  (s.countProposal proposal, ⟨proposal, []⟩)

def generateFor (s : State) (prompt : String) (source : Table) :
    State × Except ServiceError Generated :=
  let proposal := s.planner.propose prompt source.schema
  match (s.countProposal proposal).run source proposal.plan with
  | (s, .error e) => (s, .error e)
  | (s, .ok outcome) =>
    let preview :=
      match outcome.firstNonEmpty? with
      | some (_, result) => result.preview s.settings.engine.preview
      | none => []
    (s, .ok ⟨proposal, preview⟩)

def generate (s : State) (prompt : String) (file : Option String) :
    State × Except ServiceError Generated :=
  match file with
  | none =>
    let (s, generated) := s.generateDemo prompt
    (s, .ok generated)
  | some name =>
    match s.find name with
    | .error e => (s, .error e)
    | .ok source => s.generateFor prompt source

/-- What an executed prompt stores: the name, the table, and how it is counted. -/
structure Stored where
  name : String
  table : Table
  outcome : TransformOutcome

def stored (file : String) (source : Table) (outcome : Outcome) : Stored :=
  match outcome.firstNonEmpty? with
  | some (id, result) => ⟨id ++ "_" ++ file, result, .success⟩
  | none => ⟨"smart_" ++ file, source, .fallback⟩

def lineageRun (prompt file fingerprint : String) (source : Table) (stored : Stored) :
    Lineage.Run where
  source := file
  sourceRows := source.height
  transform := "transform_" ++ stored.name
  label := "Smart Transform"
  metadata := [("prompt", .string prompt), ("fingerprint", .string fingerprint)]
  output := stored.name
  outputRows := stored.table.height

structure Executed where
  proposal : Prompt.Planner.Proposal
  stored : Stored
  preview : List Value
  trace : List Diagnostic

def execute (s : State) (prompt file : String) : State × Except ServiceError Executed :=
  match s.find file with
  | .error e => (s, .error e)
  | .ok source =>
    let proposal := s.planner.propose prompt source.schema
    match (s.countProposal proposal).run source proposal.plan with
    | (s, .error e) => (s, .error e)
    | (s, .ok outcome) =>
      let stored := stored file source outcome
      let run := lineageRun prompt file proposal.plan.fingerprint source stored
      let s := { s with
        registry := s.registry.insert stored.name stored.table
        lineage := s.lineage.record run }
      (s.countTransform stored.outcome,
        .ok ⟨proposal, stored, stored.table.preview s.settings.engine.preview, outcome.trace⟩)

def validate (s : State) (prompt : String) : State × Prompt.Validation :=
  let validation := s.planner.validate prompt
  ({ s with metrics := s.metrics.recordValidation validation.isValid }, validation)

def generatePlan (s : State) (prompt : String) (files : List String) :
    State × Except ServiceError Plan :=
  match s.findFirst files with
  | .error e => (s, .error e)
  | .ok source =>
    let proposal := s.planner.propose prompt source.schema
    (s.countProposal proposal, .ok proposal.plan)

def executePlan (s : State) (plan : Plan) (files : List String) :
    State × Except ServiceError Outcome :=
  match plan.check with
  | .error e => (s, .error (.execution (.invalidPlan e)))
  | .ok () =>
    match s.findFirst files with
    | .error e => (s, .error e)
    | .ok source =>
      match s.run source plan with
      | (s, .error e) => (s, .error e)
      | (s, .ok outcome) => (s.countTransform .preview, .ok outcome)

def upload (s : State) (name : String) (records : List Value) :
    State × Except ServiceError Table :=
  match Table.ofRecords records with
  | .error e => (s, .error (.invalidTable e))
  | .ok table => ({ s with registry := s.registry.insert name table }, .ok table)

def catalog (s : State) (name : String) : Except ServiceError CatalogEntry := do
  return CatalogEntry.ofTable name (← s.find name)

end State
end TablePlanner
