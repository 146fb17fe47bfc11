import TablePlanner.Proofs.Plan.RoundTrip
import TablePlanner.Proofs.Service.Step

namespace TablePlanner

namespace Address

theorem toList_loop_eq (bs : ByteArray) (i : Nat) (r : List UInt8) :
    ByteArray.toList.loop bs i r = r.reverse ++ bs.data.toList.drop i := by
  fun_induction ByteArray.toList.loop bs i r with
  | case1 i r hi ih =>
    have hsize : i < bs.data.toList.length := by simpa using hi
    have hget : bs.get! i = bs.data.toList[i] := getElem!_pos bs.data i hi
    rw [ih, hget, List.reverse_cons, List.append_assoc, List.singleton_append,
      List.getElem_cons_drop]
  | case2 i r hi =>
    have hsize : bs.size = bs.data.toList.length := by simp
    rw [List.drop_eq_nil_of_le (by omega), List.append_nil]

theorem toList_eq_data (bs : ByteArray) : bs.toList = bs.data.toList := by
  rw [ByteArray.toList, toList_loop_eq]
  rfl

theorem decodeBytes_eq {cs : List Char} (h : '%' ∉ cs) :
    decodeBytes cs = cs.utf8Encode.data.toList := by
  induction cs with
  | nil =>
    rw [decodeBytes]
    rfl
  | cons c cs ih =>
    rw [List.mem_cons, not_or] at h
    rw [decodeBytes, ih h.2, toList_eq_data]
    · rw [List.utf8Encode_cons, ByteArray.toList_data_append]
      rfl
    · rintro a b rest rfl
      exact absurd rfl h.1

theorem decode?_eq_some {cs : List Char} (h : '%' ∉ cs) :
    decode? cs = some (String.ofList cs) := by
  have hvalid : cs.utf8Encode.IsValidUTF8 := .intro cs rfl
  rw [decode?, decodeBytes_eq h]
  exact dif_pos hvalid

end Address

namespace Service
open Json
open Document (ofValue map_of_ok toRecord_ofValue toTexts_ofValue readInOrder field optionalField)

def postRequest (target : String) (body : Value) : Request := ⟨"POST", target, some body.render⟩

def planRequest (prompt file : String) : Request :=
  postRequest "/smart/plan/generate"
    (.object [("prompt", .string prompt), ("file_ids", .strings [file])])

def executeRequest (prompt file : String) : Request :=
  postRequest "/smart-transform/execute"
    (.object [("prompt", .string prompt), ("filename", .string file)])

def executePlanRequest (plan : Plan) (file : String) : Request :=
  postRequest "/smart/plan/execute"
    (.object [("plan", plan.toJson), ("file_ids", .strings [file])])

def uploadRequest (name : String) (records : List Value) : Request :=
  postRequest ("/tables/" ++ name) (.array records)

theorem readBody_render {read : Reader Action} {body : Value} {a : Action}
    (hbody : body.Exact Document.maxDepth) (hread : read (ofValue body) = .ok a) :
    readBody read (some body.render) = .ok a := by
  simp only [readBody, readLeading, Document.ofText_render hbody, hread]

theorem action_postRequest {target : String} {path query : List Char} {read : Reader Action}
    {body : Value} {a : Action} (hlocate : Address.locate? target.toList = some (path, query))
    (hroute : route? (String.ofList path) = some (.post read))
    (hbody : body.Exact Document.maxDepth) (hread : read (ofValue body) = .ok a) :
    action (postRequest target body) = .ok a := by
  simp only [action, postRequest, hlocate, hroute, if_pos, readBody_render hbody hread]

theorem action_planRequest (prompt file : String) :
    action (planRequest prompt file) = .ok (.generatePlan prompt [file]) := by
  have hexact : Value.Exact Document.maxDepth
      (.object [("prompt", .string prompt), ("file_ids", .strings [file])]) :=
    .object (by simp) (by simp [Value.Exact.string, Value.exact_strings])
  refine action_postRequest rfl rfl hexact ?_
  refine map_of_ok _ (toRecord_ofValue rfl (by simp) ?_) (a := (prompt, [file]))
  simp only [List.map, readInOrder, field, optionalField, toTexts_ofValue]
  rfl

theorem action_executeRequest (prompt file : String) :
    action (executeRequest prompt file) = .ok (.execute prompt file) := by
  have hexact : Value.Exact Document.maxDepth
      (.object [("prompt", .string prompt), ("filename", .string file)]) :=
    .object (by simp) (by simp [Value.Exact.string])
  refine action_postRequest rfl rfl hexact ?_
  exact map_of_ok _ (toRecord_ofValue rfl (by simp) rfl) (a := (prompt, file))

theorem action_executePlanRequest {plan : Plan} (h : plan.Exact) (file : String) :
    action (executePlanRequest plan file) = .ok (.executePlan plan [file]) := by
  have hplan : plan.toJson.Exact 126 := h.toJson.mono (by decide)
  have hexact : Value.Exact Document.maxDepth
      (.object [("plan", plan.toJson), ("file_ids", .strings [file])]) :=
    .object (by simp) (by simp [hplan, Value.exact_strings])
  refine action_postRequest rfl rfl hexact ?_
  refine map_of_ok _ (toRecord_ofValue rfl (by simp) ?_) (a := (plan, [file]))
  simp only [List.map, readInOrder, field, optionalField, Wire.plan_ofValue h, toTexts_ofValue]
  rfl

theorem action_uploadRequest {name : String} {records : List Value} {path query : List Char}
    (hlocate : Address.locate? ("/tables/" ++ name).toList = some (path, query))
    (hroute : route? (String.ofList path) = some (.table name.toList)) (hplain : '%' ∉ name.toList)
    (hrecords : (Value.array records).Exact Document.maxDepth) :
    action (uploadRequest name records) = .ok (.upload name records) := by
  have hname : Address.decode? name.toList = some name := by
    rw [Address.decode?_eq_some hplain, String.ofList_toList]
  have hread : readUpload name (ofValue (.array records)) = .ok (.upload name records) := by
    have hitems : ∀ v ∈ records, Document.toValue (ofValue (id v)) = .ok v := by
      cases hrecords with
      | array h => exact fun v hv => Document.toValue_ofValue (h v hv)
    have hlist := Document.toList_ofValue hitems
    rw [List.map_id] at hlist
    exact map_of_ok _ hlist
  have hbody := readBody_render hrecords hread
  simp only [action, uploadRequest, postRequest, hlocate, hroute, tableAction, hname, hbody]
  rfl

section
variable {s s' : State} {r : Request} {a : Action} {toReply : α → Reply}
  {result : State × Except ServiceError α}

theorem serve_of_ok {x : α} (haction : action r = .ok a) (hact : act s a = reply toReply result)
    (h : result = (s', .ok x)) : serve s r = (s', .replied (toReply x)) := by
  simp only [serve, haction, hact, h, reply]

theorem serve_of_error {e : ServiceError} (haction : action r = .ok a)
    (hact : act s a = reply toReply result) (h : result = (s', .error e)) :
    serve s r = (s', .failed e) := by
  simp only [serve, haction, hact, h, reply]

end

end Service
end TablePlanner
