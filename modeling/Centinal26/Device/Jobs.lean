/-
A job that is executed was signed for this device, and is executed once: as long as the
worker has room for the nonces it has seen.
-/
import Centinal26.Device.Worker
import Mathlib.Data.List.Dedup

namespace Centinal26.Device

open Py Machine

variable (L : Libraries) (w : Worker)

-- == authorization

/-- What a job has to be for this worker to run it. -/
structure Authorized (job : Items) (now : Instant) : Prop where
  fields : (∀ m ∈ job, ∃ f ∈ jobFields, m.1 = .str (py f))
    ∧ ∀ f ∈ jobFields, ∃ m ∈ job, m.1 = .str (py f)
  signed : ∃ text, canonicalBytes job ["signature"] = .ok text
    ∧ itemOf job "signature" = .str (L.hmac w.secret text)
  target : itemOf job "target_device_id" = .str w.deviceId
  capability : ∃ c ∈ allowedCapabilities, itemOf job "capability" = .str (py c)
  scope : (itemOf job "authorization_scope").eq
    (.dict [item "device_id" (.str w.deviceId), item "capability" (itemOf job "capability")]) = true
  unexpired : ∃ s t, itemOf job "expires_at" = .str s
    ∧ L.fromisoformat s = some (.aware t) ∧ now < t

variable {L w}

theorem errorUnless_eq_nil {condition : Bool} {error : String} :
    errorUnless condition error = [] ↔ condition = true := by
  cases condition <;> simp [errorUnless]

theorem hasFields_iff {job : Items} : hasFields job = true
    ↔ (∀ m ∈ job, ∃ f ∈ jobFields, m.1 = .str (py f))
      ∧ ∀ f ∈ jobFields, ∃ m ∈ job, m.1 = .str (py f) := by
  simp [hasFields]

theorem allowed_ok {v : PyVal} (h : allowed v = .ok true) :
    ∃ c ∈ allowedCapabilities, v = .str (py c) := by
  have hany : (allowedCapabilities.any fun c => v.eq (.str (py c))) = true := by
    unfold allowed at h
    split at h
    · cases h
    · cases h
    · exact Except.ok.inj h
  obtain ⟨c, hc, heq⟩ := List.any_eq_true.mp hany
  exact ⟨c, hc, PyVal.eq_str.mp heq⟩

variable {now : Instant} {s : State} {names : List PyStr} {name : PyStr}

theorem expired?_ok {job : Items} (h : expired? L job now = .ok (some false)) :
    ∃ s t, itemOf job "expires_at" = .str s ∧ L.fromisoformat s = some (.aware t) ∧ now < t := by
  unfold expired? at h
  split at h
  · next t hv =>
    obtain ⟨s, hs, ht⟩ := Option.bind_eq_some_iff.mp hv
    obtain ⟨t', ht', hlate⟩ := of_bind_ok h
    obtain ⟨-, rfl⟩ := astimezone_ok.mp ht'
    refine ⟨s, _, PyVal.text?_eq.mp hs, ht, ?_⟩
    exact Int.not_le.mp (of_decide_eq_false (Option.some.inj (Except.ok.inj hlate)))
  · cases h

theorem verifySignature_ok {record : Items} {secret : List UInt8}
    (h : verifySignature L record secret = .ok true) :
    ∃ text, canonicalBytes record ["signature"] = .ok text
      ∧ itemOf record "signature" = .str (L.hmac secret text) := by
  unfold verifySignature at h
  split at h
  · cases h
  · next supplied hs =>
    obtain ⟨digest, hdigest, heq⟩ := of_bind_ok h
    obtain ⟨text, htext, hd⟩ := of_bind_ok hdigest
    refine ⟨text, htext, ?_⟩
    rw [PyVal.text?_eq.mp hs]
    unfold compareDigest at heq
    split at heq
    · rw [of_decide_eq_true (Except.ok.inj heq), ← Except.ok.inj hd]
    · cases heq

theorem of_validateJob {job : Items} (h : validateJob L w s job now = .ok []) :
    Authorized L w job now ∧ ∃ nonce, itemOf job "nonce" = .str nonce ∧ nonce ∉ seenNonces s := by
  unfold validateJob at h
  obtain ⟨isAllowed, hallowed, h⟩ := of_bind_ok h
  obtain ⟨isExpired, hexpired, h⟩ := of_bind_ok h
  obtain ⟨isSigned, hsigned, h⟩ := of_bind_ok h
  have hnil := Except.ok.inj h
  simp only [List.append_eq_nil_iff, errorUnless_eq_nil, PyVal.eq_str] at hnil
  obtain ⟨⟨⟨⟨⟨⟨⟨⟨⟨hfields, htarget⟩, rfl⟩, -⟩, hscope⟩, hnonce⟩, hlate⟩, rfl⟩, -⟩, -⟩ := hnil
  refine ⟨⟨hasFields_iff.mp hfields, verifySignature_ok hsigned, htarget, allowed_ok hallowed,
    hscope, ?_⟩, ?_⟩
  · cases isExpired with
    | none => cases hlate
    | some late =>
      rw [errorUnless_eq_nil, Bool.not_eq_true'] at hlate
      subst hlate
      exact expired?_ok hexpired
  · unfold nonceErrors at hnonce
    split at hnonce
    · next c cs hv =>
      refine ⟨c :: cs, hv, ?_⟩
      rw [errorUnless_eq_nil] at hnonce
      simpa using hnonce
    · cases hnonce

-- == nonces

theorem mem_sortedSet : name ∈ sortedSet names ↔ name ∈ names := by
  rw [sortedSet, List.mem_mergeSort, List.mem_dedup]

theorem length_sortedSet_le (names : List PyStr) : (sortedSet names).length ≤ names.length := by
  rw [sortedSet, List.length_mergeSort]
  exact (List.dedup_sublist names).length_le

theorem lastOf_of_length_le {n : Nat} (h : names.length ≤ n) : lastOf n names = names := by
  rw [lastOf, Nat.sub_eq_zero_of_le h, List.drop_zero]

theorem seenNonces_remember (s : State) (nonce : PyStr) :
    seenNonces (remember s nonce) = lastOf kept (sortedSet (seenNonces s ++ [nonce])) := by
  unfold remember
  rw [seenNonces, Option.getD_some, seenNonces]

def Room (s : State) : Prop := (seenNonces s).length < kept

theorem mem_remember {nonce : PyStr} (hroom : Room s)
    (h : name ∈ seenNonces s ∨ name = nonce) : name ∈ seenNonces (remember s nonce) := by
  have hlength : (sortedSet (seenNonces s ++ [nonce])).length ≤ kept := by
    refine (length_sortedSet_le _).trans ?_
    rw [List.length_append, List.length_singleton]
    unfold Room at hroom
    omega
  rw [seenNonces_remember, lastOf_of_length_le hlength, mem_sortedSet, List.mem_append,
    List.mem_singleton]
  exact h

-- == calls

theorem seen_journaled (s : State) (time : PyStr) (event : String) (executed : Option PyVal)
    (result : Items) : (journaled L s time event executed result).2.seen = s.seen
      ∧ (journaled L s time event executed result).1.executed = executed := by
  unfold journaled
  split
  · exact ⟨rfl, rfl⟩
  · exact ⟨rfl, rfl⟩

theorem executeJob_valid {call : Call} {nonce : PyStr}
    (hvalid : validateJob L call.worker s call.job call.now = .ok [])
    (hnonce : itemOf call.job "nonce" = .str nonce) :
    (executeJob L call s).1.executed = some (itemOf call.job "capability")
      ∧ (executeJob L call s).2.seen = (remember s nonce).seen := by
  have htext : (itemOf call.job "nonce").text?.getD [] = nonce := by
    rw [hnonce]
    rfl
  unfold executeJob
  rw [hvalid]
  dsimp only
  rw [htext]
  split
  · exact ⟨rfl, rfl⟩
  · exact ⟨(seen_journaled ..).2, (seen_journaled ..).1⟩

/-- What a call does: it runs nothing and leaves the nonces alone, or it runs the capability of
an authorized job with a new nonce, which it remembers. -/
theorem executeJob_cases (call : Call) (s : State) :
    ((executeJob L call s).1.executed = none ∧ (executeJob L call s).2.seen = s.seen)
    ∨ ((executeJob L call s).1.executed = some (itemOf call.job "capability")
      ∧ Authorized L call.worker call.job call.now ∧ ∃ nonce, itemOf call.job "nonce" = .str nonce
        ∧ nonce ∉ seenNonces s
        ∧ (executeJob L call s).2.seen = (remember s nonce).seen) := by
  cases hvalid : validateJob L call.worker s call.job call.now with
  | error e =>
    left
    unfold executeJob
    rw [hvalid]
    exact ⟨rfl, rfl⟩
  | ok errors =>
    cases errors with
    | cons e es =>
      left
      unfold executeJob
      rw [hvalid]
      exact ⟨(seen_journaled ..).2, (seen_journaled ..).1⟩
    | nil =>
      right
      obtain ⟨hauthorized, nonce, hnonce, hnew⟩ := of_validateJob hvalid
      obtain ⟨hexecuted, hseen⟩ := executeJob_valid hvalid hnonce
      exact ⟨hexecuted, hauthorized, nonce, hnonce, hnew, hseen⟩

/-- The nonces of the calls that ran their capability. -/
def executedNonces (past : List (Entry Call Outcome State)) : List PyStr :=
  past.filterMap fun e =>
    if e.output.executed.isSome then (itemOf e.input.job "nonce").text? else none

theorem executedNonces_concat (past : List (Entry Call Outcome State))
    (e : Entry Call Outcome State) : executedNonces (past ++ [e]) = executedNonces past
      ++ (if e.output.executed.isSome then (itemOf e.input.job "nonce").text? else none).toList := by
  unfold executedNonces
  rw [List.filterMap_append]
  congr 1

/-- Every executed job is authorized; and where every executed job finds room for its nonce, no
nonce is executed twice. -/
theorem executed_once (L : Libraries) (calls : List Call) :
    (∀ e ∈ trace (executeJob L) calls .empty, e.output.executed.isSome = true →
      Authorized L e.input.worker e.input.job e.input.now
        ∧ e.output.executed = some (itemOf e.input.job "capability"))
    ∧ ((∀ e ∈ trace (executeJob L) calls .empty, e.output.executed.isSome = true → Room e.before) →
      (executedNonces (trace (executeJob L) calls .empty)).Nodup) := by
  constructor
  · have hall := history_invariant (executeJob L) (C := fun _ => True)
      (I := fun past _ => ∀ e ∈ past, e.output.executed.isSome = true →
        Authorized L e.input.worker e.input.job e.input.now
          ∧ e.output.executed = some (itemOf e.input.job "capability")) State.empty
      (fun e he => by cases he) (fun past e hvalid _ hpast => ?_) calls (fun _ _ => trivial)
    · exact hall
    · intro e' he'
      cases List.mem_append.mp he' with
      | inl hmem => exact hpast e' hmem
      | inr hlast =>
        rw [List.mem_singleton.mp hlast]
        intro hexecuted
        have hcases := executeJob_cases (L := L) e.input e.before
        rw [hvalid] at hcases
        rcases hcases with ⟨hnone, -⟩ | ⟨hsome, hauthorized, -⟩
        · rw [hnone] at hexecuted
          cases hexecuted
        · exact ⟨hauthorized, hsome⟩
  · intro hroom
    have hrun := history_invariant (executeJob L)
      (C := fun e => e.output.executed.isSome = true → Room e.before)
      (I := fun past s => (executedNonces past).Nodup
        ∧ ∀ n ∈ executedNonces past, n ∈ seenNonces s) State.empty
      ⟨List.nodup_nil, fun n hn => by cases hn⟩ (fun past e hvalid hC hpast => ?_) calls hroom
    · exact hrun.1
    · obtain ⟨honce, hseen⟩ := hpast
      have hcases := executeJob_cases (L := L) e.input e.before
      rw [hvalid] at hcases
      rw [executedNonces_concat]
      rcases hcases with ⟨hnone, hsame⟩ | ⟨hsome, -, nonce, hnonce, hnew, hafter⟩
      · dsimp only at hnone hsame
        simp only [hnone, Option.isSome_none, Bool.false_eq_true, if_false, Option.toList_none,
          List.append_nil]
        refine ⟨honce, fun n hn => ?_⟩
        rw [seenNonces, hsame]
        exact hseen n hn
      · dsimp only at hsome hafter
        have hroom := hC (by rw [hsome]; rfl)
        simp only [hsome, Option.isSome_some, if_true, hnonce, PyVal.text?, Option.toList_some]
        refine ⟨?_, fun n hn => ?_⟩
        · rw [List.nodup_append]
          refine ⟨honce, by simp, fun a ha b hb => ?_⟩
          rw [List.mem_singleton] at hb
          rintro rfl
          exact hnew (hb ▸ hseen a ha)
        · rw [seenNonces, hafter]
          refine mem_remember hroom ?_
          cases List.mem_append.mp hn with
          | inl hmem => exact Or.inl (hseen n hmem)
          | inr hlast => exact Or.inr (List.mem_singleton.mp hlast)

-- == one nonce too many

namespace Sample

def libraries : Libraries where
  hmac _ _ := py "00"
  ascii_hmac _ _ := ascii_py_of (by decide)
  sha256 _ := py "00"
  fromisoformat _ := some (.aware 1)

def worker : Worker := ⟨py "device", py "commit", []⟩

def job (nonce : PyStr) : Items := [
  item "task_id" (.str (py "task")), item "target_device_id" (.str (py "device")),
  item "capability" (.str (py "diagnostic_status")), item "parameters" (.dict []),
  item "authorization_scope" (.dict [item "device_id" (.str (py "device")),
    item "capability" (.str (py "diagnostic_status"))]),
  item "expires_at" (.str (py "later")), item "nonce" (.str nonce),
  item "expected_source_commit" (.str (py "commit")), item "signature" (.str (py "00"))]

def call (nonce : PyStr) : Call := ⟨worker, job nonce, 0, py "now", py "now", .ok []⟩

def nonce (i : Nat) : PyStr := [i + 32]

def calls (n : Nat) : List Call := (List.range n).map fun i => call (nonce i)

def body (nonce : PyStr) : List (PyStr × PyVal) := [
  (py "task_id", .str (py "task")), (py "target_device_id", .str (py "device")),
  (py "capability", .str (py "diagnostic_status")), (py "parameters", .dict []),
  (py "authorization_scope", .dict (strItems [(py "device_id", .str (py "device")),
    (py "capability", .str (py "diagnostic_status"))])),
  (py "expires_at", .str (py "later")), (py "nonce", .str nonce),
  (py "expected_source_commit", .str (py "commit"))]

theorem canonicalBytes_job (n : PyStr) :
    ∃ text, canonicalBytes (job n) ["signature"] = .ok text := by
  have hfilter : (job n).filter (fun m => !(["signature"].any fun f => decide (m.1 = .str (py f))))
      = strItems (body n) := by
    simp [job, body, item, strItems, py_inj]
  have hok : (dumps (.dict (strItems (body n)))).isOk = true := by
    rw [dumps_record_isOk]
    simp only [body, List.forall_mem_cons, List.not_mem_nil, false_imp_iff, implies_true, and_true]
    refine ⟨rfl, rfl, rfl, rfl, ?_, rfl, rfl, rfl⟩
    rw [dumps_record_isOk]
    simp only [List.forall_mem_cons, List.not_mem_nil, false_imp_iff, implies_true, and_true]
    exact ⟨rfl, rfl⟩
  obtain ⟨d, hd⟩ := exists_ok hok
  unfold canonicalBytes
  rw [hfilter, hd]
  exact ⟨_, rfl⟩

theorem signed_job (n : PyStr) : verifySignature libraries (job n) [] = .ok true := by
  obtain ⟨text, htext⟩ := canonicalBytes_job n
  have hsignature : itemOf (job n) "signature" = .str (py "00") := by
    simp [job, itemOf_item]
  unfold verifySignature signRecord
  rw [hsignature, htext]
  rfl

theorem valid_job {s : State} {c : Nat} {cs : PyStr} (h : c :: cs ∉ seenNonces s) :
    validateJob libraries worker s (job (c :: cs)) 0 = .ok [] := by
  have hfields : hasFields (job (c :: cs)) = true := by
    simp [hasFields, job, jobFields, item, py_inj]
  have hnonce : nonceErrors s (.str (c :: cs)) = [] := by
    rw [nonceErrors, errorUnless_eq_nil]
    simpa using h
  have hallowed : allowed (.str (py "diagnostic_status")) = .ok true := by decide
  have hexpired : expired? libraries (job (c :: cs)) 0 = .ok (some false) := by
    simp only [expired?, job, itemOf_item]
    rfl
  have htarget : itemOf (job (c :: cs)) "target_device_id" = .str (py "device") := by
    simp [job, itemOf_item]
  have hcapability : itemOf (job (c :: cs)) "capability" = .str (py "diagnostic_status") := by
    simp [job, itemOf_item]
  have hcommit : itemOf (job (c :: cs)) "expected_source_commit" = .str (py "commit") := by
    simp [job, itemOf_item]
  have hscope : itemOf (job (c :: cs)) "authorization_scope"
      = .dict [item "device_id" (.str (py "device")),
        item "capability" (.str (py "diagnostic_status"))] := by
    simp [job, itemOf_item]
  have hitem : itemOf (job (c :: cs)) "nonce" = .str (c :: cs) := by
    simp [job, itemOf_item]
  have hparameters : itemOf (job (c :: cs)) "parameters" = .dict [] := by
    simp [job, itemOf_item]
  have htask : itemOf (job (c :: cs)) "task_id" = .str (py "task") := by
    simp [job, itemOf_item]
  have hsigned : verifySignature libraries (job (c :: cs)) worker.secret = .ok true :=
    signed_job _
  unfold validateJob
  rw [hcapability]
  dsimp only
  rw [hallowed, bind_ok_eq, hexpired, bind_ok_eq, hsigned, bind_ok_eq, hfields, htarget, hcommit,
    hscope, hitem, hparameters, htask, hnonce]
  decide

theorem sorted_nonces (n : Nat) :
    sortedSet ((List.range n).map nonce) = (List.range n).map nonce := by
  have hlt : ((List.range n).map nonce).Pairwise (· < ·) := by
    rw [List.pairwise_map]
    refine List.pairwise_lt_range.imp fun {i j} hij => ?_
    exact List.Lex.rel (by omega)
  have hnodup : ((List.range n).map nonce).Nodup := hlt.imp fun {a b} hab => ne_of_lt hab
  rw [sortedSet, hnodup.dedup]
  exact List.mergeSort_of_pairwise (hlt.imp fun {a b} hab => decide_eq_true (le_of_lt hab))

theorem nonce_call (n : PyStr) : (itemOf (call n).job "nonce").text? = some n := by
  simp [call, job, itemOf_item, PyVal.text?]

theorem lastOf_nonces (n : Nat) : lastOf n ((List.range (n + 1)).map nonce)
    = ((List.range n).map Nat.succ).map nonce := by
  rw [lastOf, List.length_map, List.length_range, Nat.add_sub_cancel_left,
    List.range_succ_eq_map, List.map_cons, List.drop_one, List.tail_cons]

theorem call_run {s : State} {i : Nat} (h : nonce i ∉ seenNonces s) :
    (executeJob libraries (call (nonce i)) s).1.executed.isSome = true
      ∧ (executeJob libraries (call (nonce i)) s).2.seen = (remember s (nonce i)).seen := by
  have hnonce : itemOf (call (nonce i)).job "nonce" = .str (nonce i) := by
    simp [call, job, itemOf_item]
  obtain ⟨hexecuted, hseen⟩ := executeJob_valid (valid_job h) hnonce
  exact ⟨by rw [hexecuted]; rfl, hseen⟩

theorem calls_run {n : Nat} (h : n ≤ kept) :
    seenNonces (exec (executeJob libraries) (calls n) .empty) = (List.range n).map nonce
      ∧ executedNonces (trace (executeJob libraries) (calls n) .empty)
        = (List.range n).map nonce := by
  induction n with
  | zero => exact ⟨rfl, rfl⟩
  | succ n ih =>
    obtain ⟨hseen, hexecuted⟩ := ih (by omega)
    have hnew : nonce n ∉ seenNonces (exec (executeJob libraries) (calls n) .empty) := by
      rw [hseen]
      simp [nonce]
    have hrange : (List.range n).map nonce ++ [nonce n] = (List.range (n + 1)).map nonce := by
      rw [List.range_succ, List.map_append, List.map_singleton]
    have hcalls : calls (n + 1) = calls n ++ [call (nonce n)] := by
      rw [calls, List.range_succ, List.map_append, List.map_singleton, calls]
    obtain ⟨hran, hkeeps⟩ := call_run hnew
    rw [hcalls, exec_concat, trace_concat]
    constructor
    · rw [seenNonces, hkeeps, ← seenNonces, seenNonces_remember, hseen, hrange, sorted_nonces]
      exact lastOf_of_length_le (by simpa using h)
    · rw [executedNonces_concat, hexecuted, ← hrange]
      simp [entry, hran, nonce_call]

/-- The jobs of so many nonces, one more, and the first of them again. -/
def replay (n : Nat) : List Call := calls n ++ [call (nonce n)] ++ [call (nonce 0)]

theorem replay_run {n : Nat} (hn : n = kept) (hpos : 0 < n) :
    ¬ (executedNonces (trace (executeJob libraries) (replay n) .empty)).Nodup := by
  obtain ⟨hseen, hexecuted⟩ := calls_run (le_of_eq hn)
  have hlast : nonce n ∉ seenNonces (exec (executeJob libraries) (calls n) .empty) := by
    rw [hseen]
    simp [nonce]
  have hrange : (List.range n).map nonce ++ [nonce n] = (List.range (n + 1)).map nonce := by
    rw [List.range_succ, List.map_append, List.map_singleton]
  obtain ⟨-, hafter⟩ := call_run hlast
  have hdropped : seenNonces (exec (executeJob libraries) (calls n ++ [call (nonce n)])
      .empty) = ((List.range n).map Nat.succ).map nonce := by
    rw [exec_concat, seenNonces, hafter, ← seenNonces, seenNonces_remember, hseen, hrange,
      sorted_nonces, ← hn, lastOf_nonces]
  have hfirst : nonce 0 ∉ seenNonces (exec (executeJob libraries)
      (calls n ++ [call (nonce n)]) .empty) := by
    rw [hdropped]
    simp [nonce]
  obtain ⟨hagain, -⟩ := call_run hfirst
  rw [replay, trace_concat, executedNonces_concat, trace_concat, executedNonces_concat, hexecuted]
  intro honce
  rw [List.append_assoc, List.nodup_append] at honce
  refine honce.2.2 (nonce 0) (List.mem_map_of_mem (List.mem_range.mpr hpos)) (nonce 0)
    (List.mem_append_right _ ?_) rfl
  simp [entry, hagain, nonce_call]

end Sample

theorem kept_pos : 0 < kept := by
  unfold kept
  decide

/-- One nonce more than there is room for, and the first of them again. -/
theorem replayed : ∃ calls, ¬ (executedNonces (trace (executeJob Sample.libraries)
    calls .empty)).Nodup :=
  ⟨Sample.replay kept, Sample.replay_run rfl kept_pos⟩

end Centinal26.Device
