/-
A job that the worker cannot answer ends it: `execute_job` reads the members of a job before it
knows what they are.
-/
import Centinal26.Device.Jobs
import Centinal26.Py.Loads

namespace Centinal26.Device

open Py

inductive Failure : Type
  | py (e : PyErr)
  /-- an `AttributeError` -/
  | attribute
deriving DecidableEq

/-- A call of `execute_job`, without the job. -/
structure Moment where
  worker : Worker
  now : Instant
  resultTime : PyStr
  journalTime : PyStr
  output : Except PyErr Items

def Moment.call (m : Moment) (job : Items) : Call :=
  ⟨m.worker, job, m.now, m.resultTime, m.journalTime, m.output⟩

variable (L : Libraries)

/-- `execute_job`, of the `job` of a response. -/
def answer (m : Moment) (job : Json) (s : State) : Except Failure Items × State :=
  match loads job with
  | .dict items =>
    let (outcome, after) := executeJob L (m.call items) s
    (outcome.returned.mapError .py, after)
  -- `validate_job` finds that it is no object, and `job.get` has no such attribute
  | _ => (.error .attribute, s)

/-- The last record of the journal has its hash. -/
def WellFormed (journal : List Items) : Prop :=
  ∀ record ∈ journal.getLast?, ∃ hash, itemOf record "record_hash" = .str hash

/-- The job is passed or rejected, and one record more is in the journal, linked to the last. -/
def Answers (m : Moment) (job : Json) (s : State) : Prop :=
  ∃ result, (answer L m job s).1 = .ok result
    ∧ (itemOf result "status" = .str (py "PASS") ∨ itemOf result "status" = .str (py "REJECTED"))
    ∧ ∃ record, (answer L m job s).2.journal = s.journal ++ [record]
      ∧ itemOf record "previous_hash" = tailHash s.journal

structure Answerable (m : Moment) (s : State) (job : Items) : Prop where
  hashable : (∀ xs, itemOf job "capability" ≠ .list xs) ∧ ∀ ms, itemOf job "capability" ≠ .dict ms
  inRange : ∀ text t, itemOf job "expires_at" = .str text →
    L.fromisoformat text = some (.aware t) → 0 ≤ t ∧ t ≤ maxInstant
  ascii : ∀ text, itemOf job "signature" = .str text → Ascii text
  /-- the device has something to say, where it is asked -/
  found : validateJob L m.worker s job m.now = .ok [] →
    ∃ output, m.output = .ok output ∧ (dumps (.dict output)).isOk = true

variable {L}

-- == texts

theorem canonicalBytes_isOk {ms : List (PyStr × PyVal)} {omitted : List String} :
    (canonicalBytes (strItems ms) omitted).isOk = true
      ↔ ∀ m ∈ ms, (∀ f ∈ omitted, m.1 ≠ py f) → (dumps m.2).isOk = true := by
  have hfilter : (strItems ms).filter (fun m => !omitted.any fun f => decide (m.1 = .str (py f)))
        = strItems (ms.filter fun m => !omitted.any fun f => decide (m.1 = py f)) := by
    unfold strItems
    rw [List.filter_map]
    congr 1
    refine List.filter_congr fun m _ => ?_
    simp only [Function.comp_apply, PyKey.str.injEq]
  have hbind : (canonicalBytes (strItems ms) omitted).isOk
      = (dumps (.dict (strItems (ms.filter fun m =>
        !omitted.any fun f => decide (m.1 = py f))))).isOk := by
    unfold canonicalBytes
    rw [hfilter]
    cases dumps (.dict (strItems (ms.filter fun m =>
      !omitted.any fun f => decide (m.1 = py f)))) <;> rfl
  rw [hbind, dumps_record_isOk]
  simp only [List.mem_filter, Bool.not_eq_true', List.any_eq_false, decide_eq_true_eq, and_imp]

theorem canonicalBytes_job_isOk {job : Json} (hn : job.isNormal = true)
    (hs : job.isShort = true) {items : Items} (h : loads job = .dict items)
    (omitted : List String) : (canonicalBytes items omitted).isOk = true := by
  cases job with
  | obj ms =>
    have hn' := hn
    rw [Json.isNormal, Bool.and_eq_true, decide_eq_true_eq] at hn'
    have hdumps := dumps_loads _ hn hs
    rw [loads_obj hn'.1.nodup] at h hdumps
    cases h
    have hok := dumps_record_isOk.mp (by rw [hdumps]; rfl)
    exact canonicalBytes_isOk.mpr fun m hm _ => hok m hm
  | _ =>
    rw [loads] at h
    cases h

-- == checks

theorem allowed_isOk {v : PyVal} :
    (allowed v).isOk = true ↔ (∀ xs, v ≠ .list xs) ∧ ∀ ms, v ≠ .dict ms := by
  cases v <;> simp [allowed, Except.isOk, Except.toBool]

variable {job : Items} {s : State}

theorem expired?_isOk {now : Instant} : (expired? L job now).isOk = true
    ↔ ∀ text t, itemOf job "expires_at" = .str text →
      L.fromisoformat text = some (.aware t) → 0 ≤ t ∧ t ≤ maxInstant := by
  unfold expired?
  split
  · next t h =>
    obtain ⟨text, htext, ht⟩ := Option.bind_eq_some_iff.mp h
    rw [PyVal.text?_eq] at htext
    constructor
    · intro hok text' t' htext' ht'
      rw [htext] at htext'
      cases htext'
      rw [ht] at ht'
      cases ht'
      obtain ⟨r, hr⟩ := exists_ok hok
      obtain ⟨t'', hrange, -⟩ := of_bind_ok hr
      exact (astimezone_ok.mp hrange).1
    · intro hrange
      rw [astimezone_ok.mpr ⟨hrange text t htext ht, rfl⟩]
      rfl
  · next h =>
    refine iff_of_true rfl fun text t htext ht => absurd ?_ (h t)
    rw [htext]
    exact ht

theorem verifySignature_isOk (secret : List UInt8)
    (h : (canonicalBytes job ["signature"]).isOk = true) :
    (verifySignature L job secret).isOk = true
      ↔ ∀ text, itemOf job "signature" = .str text → Ascii text := by
  obtain ⟨data, hdata⟩ := exists_ok h
  unfold verifySignature
  split
  · next hnone =>
    refine iff_of_true rfl fun text htext => ?_
    rw [htext] at hnone
    cases hnone
  · next supplied htext =>
    rw [PyVal.text?_eq] at htext
    have hascii : Ascii supplied ↔ (supplied.all fun c => decide (c < 128)) = true := by
      rw [List.all_eq_true]
      simp only [decide_eq_true_eq]
      exact Iff.rfl
    unfold signRecord
    rw [hdata, bind_ok_eq, bind_ok_eq, compareDigest]
    constructor
    · intro hok text' htext'
      rw [htext] at htext'
      cases htext'
      split at hok
      · next hall => exact hascii.mpr hall
      · cases hok
    · intro hall
      rw [if_pos (hascii.mp (hall supplied htext))]
      rfl

theorem isOk_bind {ε α β : Type} {r : Except ε α} {f : α → Except ε β}
    (h : (r >>= f).isOk = true) : ∃ a, r = .ok a ∧ (f a).isOk = true := by
  cases r with
  | ok a => exact ⟨a, rfl, h⟩
  | error e => cases h

theorem validateJob_isOk (w : Worker) (now : Instant)
    (h : (canonicalBytes job ["signature"]).isOk = true) :
    (validateJob L w s job now).isOk = true
      ↔ (allowed (itemOf job "capability")).isOk = true ∧ (expired? L job now).isOk = true
        ∧ ∀ text, itemOf job "signature" = .str text → Ascii text := by
  rw [← verifySignature_isOk (L := L) w.secret h]
  constructor
  · intro hok
    unfold validateJob at hok
    obtain ⟨a, ha, hok⟩ := isOk_bind hok
    obtain ⟨b, hb, hok⟩ := isOk_bind hok
    obtain ⟨c, hc, -⟩ := isOk_bind hok
    rw [ha, hb, hc]
    exact ⟨rfl, rfl, rfl⟩
  · rintro ⟨ha, hb, hc⟩
    obtain ⟨a, ha⟩ := exists_ok ha
    obtain ⟨b, hb⟩ := exists_ok hb
    obtain ⟨c, hc⟩ := exists_ok hc
    unfold validateJob
    dsimp only
    rw [ha, bind_ok_eq, hb, bind_ok_eq, hc, bind_ok_eq]
    rfl

-- == the journal

/-- An event is written down where its values can be. -/
theorem append_ok {journal : List Items} (hj : WellFormed journal) (time : PyStr)
    (event : List (PyStr × PyVal)) (h : ∀ m ∈ event, (dumps m.2).isOk = true) :
    ∃ record, append L journal time (strItems event) = .ok (journal ++ [record])
      ∧ itemOf record "previous_hash" = tailHash journal := by
  have htail : ∃ hash, tailHash journal = .str hash := by
    unfold tailHash
    cases hlast : journal.getLast? with
    | none => exact ⟨_, rfl⟩
    | some record => exact hj record hlast
  obtain ⟨hash, htail⟩ := htail
  have hbytes : (canonicalBytes (item "timestamp" (.str time)
      :: item "previous_hash" (tailHash journal) :: strItems event) []).isOk = true := by
    rw [htail]
    refine (@canonicalBytes_isOk ((py "timestamp", .str time)
      :: (py "previous_hash", .str hash) :: event) _).mpr ?_
    intro m hm _
    rcases List.mem_cons.mp hm with rfl | hm
    · rfl
    · rcases List.mem_cons.mp hm with rfl | hm
      · rfl
      · exact h m hm
  obtain ⟨text, htext⟩ := exists_ok hbytes
  refine ⟨item "timestamp" (.str time) :: item "previous_hash" (tailHash journal)
    :: strItems event ++ [item "record_hash" (.str (L.sha256 text))], ?_, ?_⟩
  · unfold append
    dsimp only
    rw [htext, bind_ok_eq]
  · rw [List.cons_append, itemOf_item, if_neg (by decide), List.cons_append, itemOf_item,
      if_pos rfl]

theorem journaled_ok (hj : WellFormed s.journal) (time : PyStr) (event : String)
    (executed : Option PyVal) (result : List (PyStr × PyVal))
    (h : ∀ m ∈ result, (dumps m.2).isOk = true) :
    (journaled L s time event executed (strItems result)).1.returned = .ok (strItems result)
      ∧ ∃ record, (journaled L s time event executed (strItems result)).2.journal
          = s.journal ++ [record]
        ∧ itemOf record "previous_hash" = tailHash s.journal := by
  obtain ⟨record, hrecord, hprevious⟩ := append_ok (L := L) hj time
    [(py "event", .str (py event)), (py "result", .dict (strItems result))] (by
      intro m hm
      rcases List.mem_cons.mp hm with rfl | hm
      · rfl
      · rw [List.mem_singleton.mp hm]
        exact dumps_record_isOk.mpr h)
  have happend : append L s.journal time [item "event" (.str (py event)),
      item "result" (.dict (strItems result))] = .ok (s.journal ++ [record]) := hrecord
  unfold journaled
  rw [happend]
  exact ⟨rfl, record, rfl, hprevious⟩

-- == the job

section Job

variable {m : Moment} {s : State} {items : Items}

theorem executeJob_error {e : PyErr} (h : validateJob L m.worker s items m.now = .error e) :
    executeJob L (m.call items) s = (⟨none, .error e⟩, s) := by
  unfold executeJob Moment.call
  simp only [h]

def completedFields (s : State) (call : Call) (output : Items) : List (PyStr × PyVal) := [
  (py "task_id", itemOf call.job "task_id"), (py "device_id", .str call.worker.deviceId),
  (py "capability", itemOf call.job "capability"), (py "status", .str (py "PASS")),
  (py "timestamp", .str call.resultTime), (py "source_commit", .str call.worker.sourceCommit),
  (py "output", .dict output), (py "previous_evidence_hash", tailHash s.journal)]

theorem dumps_completedFields {call : Call} {output : Items}
    (htask : (dumps (itemOf call.job "task_id")).isOk = true)
    (hcapability : (dumps (itemOf call.job "capability")).isOk = true)
    (hj : (dumps (tailHash s.journal)).isOk = true)
    (houtput : (dumps (.dict output)).isOk = true) :
    ∀ field ∈ completedFields s call output, (dumps field.2).isOk = true := by
  intro field hfield
  simp only [completedFields, List.mem_cons, List.not_mem_nil, or_false] at hfield
  rcases hfield with rfl | rfl | rfl | rfl | rfl | rfl | rfl | rfl
  · exact htask
  · rfl
  · exact hcapability
  · rfl
  · rfl
  · rfl
  · exact houtput
  · exact hj

/-- A result is signed where what the device says can be written. -/
theorem completed_ok (call : Call) {output : Items}
    (htask : (dumps (itemOf call.job "task_id")).isOk = true)
    (hcapability : (dumps (itemOf call.job "capability")).isOk = true)
    (hj : (dumps (tailHash s.journal)).isOk = true)
    (houtput : (dumps (.dict output)).isOk = true) :
    ∃ signature, completed L s call output
      = .ok (strItems (completedFields s call output ++ [(py "signature", .str signature)])) := by
  have hbytes : (canonicalBytes (strItems (completedFields s call output))
      ["signature"]).isOk = true :=
    canonicalBytes_isOk.mpr fun field hfield _ =>
      dumps_completedFields htask hcapability hj houtput field hfield
  obtain ⟨text, htext⟩ := exists_ok hbytes
  refine ⟨L.hmac call.worker.secret text, ?_⟩
  have hsign : signRecord L (strItems (completedFields s call output)) call.worker.secret
      = .ok (L.hmac call.worker.secret text) := by
    unfold signRecord
    rw [htext, bind_ok_eq]
  unfold completed
  dsimp only
  change (signRecord L (strItems (completedFields s call output)) call.worker.secret >>= _) = _
  rw [hsign, bind_ok_eq]
  rfl

theorem of_completed {call : Call} {output : Items}
    (h : (completed L s call output).isOk = true) : (dumps (.dict output)).isOk = true := by
  unfold completed at h
  dsimp only at h
  obtain ⟨signature, hsign, -⟩ := isOk_bind h
  obtain ⟨text, htext, -⟩ := of_bind_ok hsign
  have hbytes : (canonicalBytes (strItems (completedFields s call output))
      ["signature"]).isOk = true := by
    change (canonicalBytes (strItems (completedFields s call output)) ["signature"]) = _ at htext
    rw [htext]
    rfl
  refine canonicalBytes_isOk.mp hbytes (py "output", .dict output) ?_ ?_
  · simp [completedFields]
  · exact (by decide : ∀ f ∈ ["signature"], py "output" ≠ py f)

theorem tailHash_isOk (hj : WellFormed s.journal) : (dumps (tailHash s.journal)).isOk = true := by
  unfold tailHash
  cases hlast : s.journal.getLast? with
  | none => rfl
  | some record =>
    obtain ⟨hash, hhash⟩ := hj record hlast
    dsimp only
    rw [hhash]
    rfl

theorem dumps_errors (es : List String) :
    (dumps (.list (es.map fun e => .str (py e)))).isOk = true := by
  have hlist : ∃ ds, dumpsList (es.map fun e => .str (py e)) = .ok ds := by
    induction es with
    | nil => exact ⟨[], rfl⟩
    | cons e es ih =>
      obtain ⟨ds, hds⟩ := ih
      refine ⟨.str (py e) :: ds, ?_⟩
      rw [List.map_cons, dumpsList, hds]
      rfl
  obtain ⟨ds, hds⟩ := hlist
  rw [dumps, hds]
  rfl

theorem dumps_member {job : Json} (hn : job.isNormal = true) (hs : job.isShort = true)
    (h : loads job = .dict items) (key : String) : (dumps (itemOf items key)).isOk = true := by
  cases job with
  | obj ms =>
    have hn' := hn
    rw [Json.isNormal, Bool.and_eq_true, decide_eq_true_eq] at hn'
    have hdumps := dumps_loads _ hn hs
    rw [loads_obj hn'.1.nodup] at h hdumps
    cases h
    have hok := dumps_record_isOk.mp (by rw [hdumps]; rfl)
    unfold itemOf
    cases hget : getItem? (strItems (ms.map fun m => (m.1, loads m.2))) (.str (py key)) with
    | none => rfl
    | some v =>
      unfold getItem? at hget
      obtain ⟨field, hfield, rfl⟩ := Option.map_eq_some_iff.mp hget
      obtain ⟨n, hmem, rfl⟩ := List.mem_map.mp (List.mem_of_find?_eq_some hfield)
      exact hok n hmem
  | _ =>
    rw [loads] at h
    cases h

theorem executeJob_answers {job : Json} (hn : job.isNormal = true) (hs : job.isShort = true)
    (hj : WellFormed s.journal) (h : loads job = .dict items) :
    Answers L m job s ↔ Answerable L m s items := by
  have hbytes := canonicalBytes_job_isOk hn hs h ["signature"]
  have hvalid := validateJob_isOk (L := L) (s := s) m.worker m.now hbytes
  rw [allowed_isOk, expired?_isOk] at hvalid
  have hanswer : answer L m job s = (((executeJob L (m.call items) s).1.returned).mapError .py,
      (executeJob L (m.call items) s).2) := by
    unfold answer
    rw [h]
  unfold Answers
  rw [hanswer]
  constructor
  · rintro ⟨result, hresult, -, -⟩
    have hreturned := of_mapError_ok hresult
    have hok : (validateJob L m.worker s items m.now).isOk = true := by
      cases hcheck : validateJob L m.worker s items m.now with
      | ok errors => rfl
      | error e =>
        rw [executeJob_error hcheck] at hreturned
        cases hreturned
    obtain ⟨hhash, hrange, hascii⟩ := hvalid.mp hok
    refine ⟨hhash, hrange, hascii, fun hpass => ?_⟩
    have hbind : ∃ done, (m.output.bind (completed L
        (remember s ((itemOf items "nonce").text?.getD [])) (m.call items))) = .ok done := by
      unfold executeJob Moment.call at hreturned
      simp only [hpass] at hreturned
      split at hreturned
      · cases hreturned
      · next done hdone => exact ⟨done, hdone⟩
    obtain ⟨done, hdone⟩ := hbind
    obtain ⟨output, houtput, hdone⟩ := of_bind_ok hdone
    exact ⟨output, houtput, of_completed (by rw [hdone]; rfl)⟩
  · intro hjob
    obtain ⟨errors, hcheck⟩ := exists_ok (hvalid.mpr ⟨hjob.hashable, hjob.inRange, hjob.ascii⟩)
    cases errors with
    | cons e es =>
      have hrejected := journaled_ok (L := L) hj m.journalTime "job_rejected" none
        [(py "task_id", itemOf items "task_id"), (py "status", .str (py "REJECTED")),
          (py "errors", .list ((e :: es).map fun e => .str (py e)))] (by
          intro field hfield
          simp only [List.mem_cons, List.not_mem_nil, or_false] at hfield
          rcases hfield with rfl | rfl | rfl
          · exact dumps_member hn hs h _
          · rfl
          · exact dumps_errors (e :: es))
      have hrun : executeJob L (m.call items) s = journaled L s m.journalTime "job_rejected" none
          (strItems [(py "task_id", itemOf items "task_id"), (py "status", .str (py "REJECTED")),
            (py "errors", .list ((e :: es).map fun e => .str (py e)))]) := by
        unfold executeJob Moment.call
        simp only [hcheck]
        rfl
      rw [hrun, hrejected.1]
      refine ⟨_, rfl, Or.inr ?_, hrejected.2⟩
      change itemOf (item "task_id" _ :: item "status" _ :: _) _ = _
      rw [itemOf_item, if_neg (by decide), itemOf_item, if_pos rfl]
    | nil =>
      obtain ⟨output, houtput, hdumps⟩ := hjob.found hcheck
      have hkept : WellFormed (remember s ((itemOf items "nonce").text?.getD [])).journal := hj
      obtain ⟨signature, hdone⟩ := completed_ok (L := L)
        (s := remember s ((itemOf items "nonce").text?.getD [])) (m.call items)
        (dumps_member hn hs h _) (dumps_member hn hs h _) (tailHash_isOk hkept) hdumps
      have hpassed := journaled_ok (L := L) hkept m.journalTime "job_completed"
        (some (itemOf items "capability"))
        (completedFields (remember s ((itemOf items "nonce").text?.getD [])) (m.call items) output
          ++ [(py "signature", .str signature)]) (by
          intro field hfield
          rcases List.mem_append.mp hfield with hfield | hfield
          · exact dumps_completedFields (dumps_member hn hs h _) (dumps_member hn hs h _)
              (tailHash_isOk hkept) hdumps field hfield
          · rw [List.mem_singleton.mp hfield]
            rfl)
      have hrun : executeJob L (m.call items) s
          = journaled L (remember s ((itemOf items "nonce").text?.getD [])) m.journalTime
            "job_completed" (some (itemOf items "capability"))
            (strItems (completedFields (remember s ((itemOf items "nonce").text?.getD []))
              (m.call items) output ++ [(py "signature", .str signature)])) := by
        unfold executeJob
        have hcheck' : validateJob L (m.call items).worker s items (m.call items).now
            = .ok [] := hcheck
        have hbind : (m.call items).output.bind (completed L
            (remember s ((itemOf items "nonce").text?.getD [])) (m.call items))
              = .ok (strItems (completedFields
                (remember s ((itemOf items "nonce").text?.getD [])) (m.call items) output
                  ++ [(py "signature", .str signature)])) := by
          rw [← hdone]
          exact congrArg (Except.bind · _) houtput
        have hitems : (m.call items).job = items := rfl
        simp only [hitems, hcheck', hbind]
        rfl
      rw [hrun, hpassed.1]
      refine ⟨_, rfl, Or.inl ?_, hpassed.2⟩
      change itemOf (item "task_id" _ :: item "device_id" _ :: item "capability" _ ::
        item "status" _ :: _) _ = _
      rw [itemOf_item, if_neg (by decide), itemOf_item, if_neg (by decide), itemOf_item,
        if_neg (by decide), itemOf_item, if_pos rfl]

/-- The worker answers just the jobs that are objects and do not raise: a capability that has a
hash, a time that is one in UTC, and a signature in ASCII. -/
theorem answers_iff {job : Json} (hn : job.isNormal = true) (hs : job.isShort = true)
    (hj : WellFormed s.journal) :
    Answers L m job s ↔ ∃ items, loads job = .dict items ∧ Answerable L m s items := by
  constructor
  · intro h
    cases hitems : loads job with
    | dict items => exact ⟨items, rfl, (executeJob_answers hn hs hj hitems).mp h⟩
    | _ =>
      obtain ⟨result, hresult, -⟩ := h
      unfold answer at hresult
      rw [hitems] at hresult
      cases hresult
  · rintro ⟨items, hitems, h⟩
    exact (executeJob_answers hn hs hj hitems).mpr h

end Job

namespace Sample

def moment : Moment := ⟨worker, 0, py "now", py "now", .ok []⟩

def unhashable : Json := .obj [(py "capability", .arr [])]

end Sample

theorem answers_empty : Answers Sample.libraries Sample.moment (.obj []) .empty
    ↔ ∃ items, loads (.obj []) = .dict items
      ∧ Answerable Sample.libraries Sample.moment .empty items :=
  answers_iff rfl rfl nofun

/-- An unsigned job ends the worker. -/
theorem answers_unhashable : Sample.unhashable.isNormal = true
    ∧ Sample.unhashable.isShort = true ∧ WellFormed State.empty.journal
    ∧ ¬ Answers Sample.libraries Sample.moment Sample.unhashable .empty := by
  have hj : WellFormed State.empty.journal := nofun
  refine ⟨rfl, rfl, hj, fun h => ?_⟩
  have hjob := (executeJob_answers rfl rfl hj
    (rfl : loads Sample.unhashable = .dict [item "capability" (.list [])])).mp h
  exact hjob.hashable.1 [] rfl

end Centinal26.Device
