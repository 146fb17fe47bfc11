import TablePlanner.Proofs.Lineage.Graph
import TablePlanner.Proofs.Service.Effect

/-! A file may have any name, hyphens included. But every edge of a run ends with an output name,
and the lengths of two equal identifiers put one of these names within the word of the other, where
it cannot start. -/
namespace TablePlanner
open Json Lineage

namespace Service

section
variable {word other file source : String} {text : List Char}

theorem eq_of_common_end (hword : word ∈ outputWords) (hother : other ∈ outputWords)
    (hlong : (outputName word file).toList <:+ text)
    (hshort : (outputName other source).toList <:+ text)
    (hle : other.length + source.length ≤ word.length + file.length)
    (hwithin : file.length ≤ other.length + source.length) : word = other ∧ file = source := by
  have hlengths :
      (outputName other source).toList.length ≤ (outputName word file).toList.length := by
    rw [String.length_toList, String.length_toList, length_outputName, length_outputName]
    omega
  obtain ⟨front, hfront⟩ := List.suffix_of_suffix_length_le hshort hlong hlengths
  have hlength := congrArg List.length hfront
  rw [List.length_append, String.length_toList, String.length_toList, length_outputName,
    length_outputName] at hlength
  refine (eq_of_overlap hword hother hfront.symm ?_).2
  rw [String.length_toList]
  omega

theorem length_id (e : Edge) : e.id.length = e.source.length + e.target.length + 3 := by
  simp only [Edge.id, String.length_append]
  have hstart : "e-".length = 2 := rfl
  have hhyphen : "-".length = 1 := rfl
  omega

theorem length_transform (name : String) : ("transform_" ++ name).length = name.length + 10 := by
  have hstart : "transform_".length = 10 := rfl
  rw [String.length_append, hstart, Nat.add_comm]

theorem target_suffix_id (e : Edge) : e.target.toList <:+ e.id.toList := by
  rw [Edge.id, String.toList_append]
  exact List.suffix_append _ _

def appliedEdge (word file : String) : Edge :=
  ⟨file, "transform_" ++ outputName word file, "Applied Plan"⟩

def generatedEdge (word file : String) : Edge :=
  ⟨"transform_" ++ outputName word file, outputName word file, "Generated"⟩

theorem suffix_appliedEdge (word file : String) :
    (outputName word file).toList <:+ (appliedEdge word file).id.toList := by
  refine .trans ?_ (target_suffix_id _)
  simp only [appliedEdge, String.toList_append]
  exact List.suffix_append _ _

theorem suffix_generatedEdge (word file : String) :
    (outputName word file).toList <:+ (generatedEdge word file).id.toList :=
  target_suffix_id (generatedEdge word file)

theorem length_appliedEdge (word file : String) :
    (appliedEdge word file).id.length = word.length + 2 * file.length + 14 := by
  have hid := length_id (appliedEdge word file)
  simp only [appliedEdge, length_transform, length_outputName] at hid ⊢
  omega

theorem length_generatedEdge (word file : String) :
    (generatedEdge word file).id.length = 2 * word.length + 2 * file.length + 15 := by
  have hid := length_id (generatedEdge word file)
  simp only [generatedEdge, length_transform, length_outputName] at hid ⊢
  omega

theorem appliedEdge_eq_of_le (hword : word ∈ outputWords) (hother : other ∈ outputWords)
    (hid : (appliedEdge word file).id = (appliedEdge other source).id)
    (hle : file.length ≤ source.length) : word = other ∧ file = source := by
  have hlength := congrArg String.length hid
  rw [length_appliedEdge, length_appliedEdge] at hlength
  -- the shorter file stands behind the longer word, so its output name is the longer one
  exact eq_of_common_end hword hother (suffix_appliedEdge word file)
    (hid ▸ suffix_appliedEdge other source) (by omega) (by omega)

theorem generatedEdge_inj (hword : word ∈ outputWords) (hother : other ∈ outputWords)
    (hid : (generatedEdge word file).id = (generatedEdge other source).id) :
    word = other ∧ file = source := by
  have hlength := congrArg String.length hid
  rw [length_generatedEdge, length_generatedEdge] at hlength
  exact eq_of_common_end hword hother (suffix_generatedEdge word file)
    (hid ▸ suffix_generatedEdge other source) (by omega) (by omega)

theorem appliedEdge_inj (hword : word ∈ outputWords) (hother : other ∈ outputWords)
    (hid : (appliedEdge word file).id = (appliedEdge other source).id) :
    word = other ∧ file = source := by
  rcases Nat.le_total file.length source.length with hle | hle
  · exact appliedEdge_eq_of_le hword hother hid hle
  · obtain ⟨hwords, hfiles⟩ := appliedEdge_eq_of_le hother hword hid.symm hle
    exact ⟨hwords.symm, hfiles.symm⟩

theorem appliedEdge_id_ne (hword : word ∈ outputWords) (hother : other ∈ outputWords) :
    (appliedEdge word file).id ≠ (generatedEdge other source).id := by
  intro hid
  have hlength := congrArg String.length hid
  rw [length_appliedEdge, length_generatedEdge] at hlength
  -- the word is odd in length, and the other name would start right behind its middle
  obtain ⟨rfl, rfl⟩ := eq_of_common_end hword hother (suffix_appliedEdge word file)
    (hid ▸ suffix_generatedEdge other source) (by omega) (by omega)
  -- of one output both edges would have one length
  omega

end

inductive RunEdge : Edge → Prop
  | applied {word : String} (hword : word ∈ outputWords) (file : String) :
    RunEdge (appliedEdge word file)
  | generated {word : String} (hword : word ∈ outputWords) (file : String) :
    RunEdge (generatedEdge word file)

theorem RunEdge.eq_of_id_eq (a b : Edge) (ha : RunEdge a) (hb : RunEdge b) (hid : a.id = b.id) :
    a = b := by
  cases ha with
  | applied hword file =>
    cases hb with
    | applied hother source =>
      obtain ⟨hwords, hfiles⟩ := appliedEdge_inj hword hother hid
      rw [hwords, hfiles]
    | generated hother source => exact absurd hid (appliedEdge_id_ne hword hother)
  | generated hword file =>
    cases hb with
    | applied hother source => exact absurd hid.symm (appliedEdge_id_ne hother hword)
    | generated hother source =>
      obtain ⟨hwords, hfiles⟩ := generatedEdge_inj hword hother hid
      rw [hwords, hfiles]

/-- Whether the lineage of a state shows how an output came from a file. -/
def Shown (file output : String) (s : State) : Prop :=
  s.lineage.Shows file ("transform_" ++ output) output

/-- The lineage of a state is sound and has no edges but those of runs that the service records. -/
structure Recorded (s : State) : Prop where
  sound : s.lineage.Sound
  edges : ∀ e ∈ s.lineage.edges, RunEdge e

section
variable {s : State} {prompt file : String} {source : Table} {outcome : Outcome}

theorem runEdge_of_success (hfile : s.registry.get? file = some source)
    (hrun : (s.proposal prompt source).plan.run source = .ok outcome) (fingerprint : String) :
    let run := State.lineageRun prompt file fingerprint source (State.stored file source outcome)
    RunEdge run.applied ∧ RunEdge run.generated := by
  obtain ⟨origin, hkeeps, hname⟩ := keeps_stored file source outcome
  have hstores : Stores s prompt file origin _ _ :=
    ⟨⟨source, outcome, hfile, hrun, hkeeps⟩, hname⟩
  have happlied := RunEdge.applied hstores.word_mem file
  have hgenerated := RunEdge.generated hstores.word_mem file
  rw [appliedEdge, ← hname] at happlied
  rw [generatedEdge, ← hname] at hgenerated
  exact ⟨happlied, hgenerated⟩

theorem Recorded.shown_afterExecute (h : Recorded s) (hfile : s.registry.get? file = some source)
    (hrun : (s.proposal prompt source).plan.run source = .ok outcome) :
    Shown file (State.stored file source outcome).name
      (s.afterExecute prompt file source outcome) := by
  obtain ⟨happlied, hgenerated⟩ :=
    runEdge_of_success hfile hrun (s.proposal prompt source).plan.fingerprint
  exact LineageGraph.shows_record RunEdge.eq_of_id_eq h.edges happlied hgenerated

theorem Recorded.afterExecute (h : Recorded s) (hfile : s.registry.get? file = some source)
    (hrun : (s.proposal prompt source).plan.run source = .ok outcome) :
    Recorded (s.afterExecute prompt file source outcome) where
  sound := h.sound.record _
  edges e he := by
    obtain ⟨happlied, hgenerated⟩ :=
      runEdge_of_success hfile hrun (s.proposal prompt source).plan.fingerprint
    rcases LineageGraph.mem_edges_record he with he | rfl | rfl
    · exact h.edges e he
    · exact happlied
    · exact hgenerated

end

theorem recorded_initial (settings : Settings) : Recorded (.initial settings) :=
  ⟨LineageGraph.sound_empty, fun _ he => absurd he List.not_mem_nil⟩

theorem recorded_act (s : State) (a : Action) (h : Recorded s) : Recorded (act s a).1 := by
  rcases act_cases s a with hsame | ⟨name, records, t, -, -, hstate⟩ |
    ⟨prompt, file, source, outcome, -, hfind, hrun, hstate⟩
  · rw [hsame]
    exact ⟨h.sound, h.edges⟩
  · rw [hstate]
    exact ⟨h.sound, h.edges⟩
  · rw [hstate]
    exact h.afterExecute (State.get?_of_find hfind) hrun

theorem extends_act (s : State) (a : Action) : s.lineage.Extends (act s a).1.lineage := by
  rcases act_cases s a with hsame | ⟨name, records, t, -, -, hstate⟩ |
    ⟨prompt, file, source, outcome, -, -, -, hstate⟩
  · rw [hsame]
    exact .refl _
  · rw [hstate]
    exact .refl _
  · rw [hstate]
    exact LineageGraph.extends_record _ _

theorem shown_act {file output : String} (s : State) (a : Action) (h : Shown file output s) :
    Shown file output (act s a).1 :=
  (extends_act s a).shows h

/-- After any requests to a fresh service every execution among them that was answered is shown in
the lineage with its three nodes and both edges; no two nodes and no two edges have one identifier,
and every edge goes from a node to a node. -/
theorem lineage_complete (settings : Settings) (requests : List Request) :
    (respondAll (.initial settings) requests).1.lineage.Sound ∧
      ∀ (before after : List Request) (r : Request) (prompt file : String) (x : State.Executed),
        requests = before ++ r :: after → action r = .ok (.execute prompt file) →
        (serve (respondAll (.initial settings) before).1 r).2 = .replied (.executed x) →
        (respondAll (.initial settings) requests).1.lineage.Shows file
          ("transform_" ++ x.stored.name) x.stored.name := by
  have hrecorded (sent : List Request) : Recorded (respondAll (.initial settings) sent).1 :=
    respondAll_invariant recorded_act (recorded_initial settings) sent
  refine ⟨(hrecorded requests).sound, ?_⟩
  rintro before after r prompt file x rfl haction hanswer
  obtain ⟨source, outcome, hfile, hrun, hstate, hstored⟩ := run_of_executed haction hanswer
  have hshown : Shown file x.stored.name
      (serve (respondAll (.initial settings) before).1 r).1 := by
    rw [hstate, hstored]
    exact (hrecorded before).shown_afterExecute hfile hrun
  exact respondAll_after shown_act hshown

def hyphenRequests : List Request :=
  [uploadRequest "-" [.object [("Amount", .int 1)]], executeRequest "" "-"]

def hyphenTable : Table := ⟨["Amount"], [[.int 1]]⟩

theorem hyphen_uploaded :
    (respondAll (.initial .standard) (hyphenRequests.take 1)).1 =
      { State.initial .standard with registry := ⟨[("-", hyphenTable)]⟩ } := by
  have hrecords : (Value.array [.object [("Amount", .int 1)]]).Exact Document.maxDepth := by
    have hone : (Value.int 1).Exact 125 := .integer (by decide)
    exact .array (by simpa using .object (by simp) (by simpa using hone))
  have hupload : action (uploadRequest "-" [.object [("Amount", .int 1)]]) =
      .ok (.upload "-" [.object [("Amount", .int 1)]]) :=
    action_uploadRequest rfl rfl (by decide) hrecords
  simp only [hyphenRequests, List.take, respondAll, respond, serve, hupload]
  rfl

theorem hyphen_lineage_complete :
    ∃ x, (serve (respondAll (.initial .standard) (hyphenRequests.take 1)).1
        (executeRequest "" "-")).2 = .replied (.executed x) ∧
      x.stored.name = "default_table_-" ∧
      (respondAll (.initial .standard) hyphenRequests).1.lineage.Sound ∧
      (respondAll (.initial .standard) hyphenRequests).1.lineage.Shows "-"
        "transform_default_table_-" "default_table_-" := by
  have hcomplete := lineage_complete .standard hyphenRequests
  have hshown := hcomplete.2 (hyphenRequests.take 1) [] (executeRequest "" "-") "" "-"
  rw [hyphen_uploaded] at hshown ⊢
  have haction := action_executeRequest "" "-"
  have hserve := serve_of_ok haction rfl <|
    @State.execute_of_success { State.initial .standard with registry := ⟨[("-", hyphenTable)]⟩ }
      "" "-" hyphenTable ⟨[("default_table", hyphenTable)], []⟩ rfl rfl
  have hanswer := congrArg Prod.snd hserve
  exact ⟨_, hanswer, rfl, hcomplete.1, hshown _ rfl haction hanswer⟩

end Service
end TablePlanner
