/-
The Hermes bridge: calls under a request id, executed by the local engine or staged for GitHub.
-/
import Centinal26.Py.Host
import Centinal26.Py.Loads

namespace Centinal26.Hermes

open Py

-- == calls

inductive Provider : Type
  | local
  | github
  | unknown (name : PyStr)
deriving DecidableEq

def Provider.value : Provider → PyStr
  | .local => py "local"
  | .github => py "github"
  | .unknown name => name

/-- A call, under the request id it is given or draws. -/
structure Call where
  capability : PyStr
  arguments : List (PyStr × Json)
  caller : PyStr
  provider : Provider
  requestId : PyStr
  approvalToken : Option PyStr
  userApproved : Bool

def Call.content (c : Call) : PyStr × List (PyStr × Json) := (c.capability, c.arguments)

/-- What the bridge finds around it during a call. -/
structure Circumstances where
  /-- the first audit record is written -/
  audited : Bool
  /-- the capability is one of the engine's -/
  registered : Bool
  /-- the grant of the token is consumed -/
  consumed : Bool
  /-- a job is submitted -/
  submitted : Bool
  /-- the id and the state of the job, if it can be read -/
  job : Option (PyStr × PyStr)
  /-- the request file is written -/
  written : Bool
  /-- the row of the result is written, and the audit record after it -/
  recorded : Bool
  completed : Bool
  /-- the row of the failure is written -/
  failureRecorded : Bool

/-- What the bridge rests on. -/
structure Platform where
  sha256 : Text → Text
  /-- `REQUESTS / f"{request_id}.json"` -/
  path : PyStr → PyStr

def autoCapabilities : List PyStr := [py "system.echo"]

def githubAutoOperations : List PyStr :=
  [py "system.health", py "system.capabilities", py "frost.diagnostics.echo",
    py "frost.diagnostics.sha256", py "frost.diagnostics.canonicalize"]

def schema : Json := .str (py "frost-call/1.0")

/-- `make_envelope`, with its names in order. -/
def makeEnvelope (c : Call) : Json :=
  .obj [(py "context", .obj [(py "authorization_context", .obj [
        (py "automatic", .bool (decide (c.capability ∈ autoCapabilities ++ githubAutoOperations))),
        (py "caller", .str c.caller)]),
      (py "idempotency_key", .str c.requestId),
      (py "project", .str (py "Hermes")),
      (py "request_id", .str c.requestId),
      (py "source", .str (py "hermes"))]),
    (py "input", .obj c.arguments),
    (py "schema", schema),
    (py "target", .str c.capability)]

/-- `provider_request`, with its names in order. -/
def providerRequest (c : Call) : Json :=
  .obj [(py "arguments", .obj c.arguments), (py "context", .obj [(py "approved", .bool false),
      (py "caller", .str (py "hermes-c05")),
      (py "request_id", .str c.requestId),
      (py "role", .str (py "operator")),
      (py "source", .str (py "hermes"))]),
    (py "idempotency_key", .str c.requestId),
    (py "kind", .str (py "invoke")),
    (py "operation", .str c.capability),
    (py "protocol", schema),
    (py "service_id", .str (py "frost.callable.fabric"))]

-- == state

structure Result where
  requestHash : Text
  status : PyStr
  jobId : Option PyStr

structure CallRow where
  requestId : PyStr
  requestHash : Text
  capability : PyStr
  caller : PyStr
  provider : PyStr
  status : PyStr
  jobId : Option PyStr
  result : Option Result

/-- The bridge's files, and the jobs that were submitted. -/
structure World where
  calls : List CallRow
  /-- the request files, by path -/
  staged : List (PyStr × Json)
  executed : List Call

def World.empty : World := ⟨[], [], []⟩

section Steps

variable (P : Platform)

def sha256Obj (d : Json) : Except PyErr Text :=
  if d.isShort then do .ok (P.sha256 (← encode (d.text .canonical)))
  else .error (.valueError "Exceeds the limit (4300 digits) for integer string conversion")

/-- The checks of `execute_local` before it turns to the engine. -/
def refused (c : Call) (k : Circumstances) : Bool :=
  !k.registered || (decide (c.capability ∉ autoCapabilities)
      && !(c.userApproved && (c.approvalToken.map fun t => !t.isEmpty).getD false && k.consumed))

def executeLocal (c : Call) (hash : Text) (k : Circumstances) (w : World) : Option Result × World :=
  if refused c k || !k.submitted then (none, w)
  else (k.job.map fun job => ⟨hash, job.2, some job.1⟩, { w with executed := w.executed ++ [c] })

def World.file? (w : World) (path : PyStr) : Option Json :=
  (w.staged.find? fun f => decide (f.1 = path)).map Prod.snd

def stageConnected (c : Call) (hash : Text) (k : Circumstances) (w : World) :
    Option Result × World :=
  if c.capability ∉ githubAutoOperations then (none, w)
  else
    match w.file? (P.path c.requestId) with
    | some existing =>
      if existing.text .canonical ≠ (providerRequest c).text .canonical then (none, w)
      else (some ⟨hash, py "STAGED_LOCAL_ONLY", none⟩, w)
    | none =>
      if k.written then
        (some ⟨hash, py "STAGED_LOCAL_ONLY", none⟩,
          { w with staged := w.staged ++ [(P.path c.requestId, providerRequest c)] })
      else (none, w)

/-- `record_call`: a row that is there keeps its hash, capability and caller. -/
def recordCall (c : Call) (hash : Text) (status : PyStr) (result : Option Result) (w : World) :
    World :=
  if w.calls.any fun row => decide (row.requestId = c.requestId) then
    { w with calls := w.calls.map fun row =>
        if row.requestId = c.requestId then
          { row with status, jobId := result.bind Result.jobId, result }
        else row }
  else
    { w with calls := w.calls ++ [⟨c.requestId, hash, c.capability, c.caller, c.provider.value,
        status, result.bind Result.jobId, result⟩] }

def dispatch (c : Call) (hash : Text) (k : Circumstances) (w : World) : Option Result × World :=
  match c.provider with
  | .local => executeLocal c hash k w
  | .github => stageConnected P c hash k w
  | .unknown _ => (none, w)

/-- `except Exception`. -/
def failed (c : Call) (hash : Text) (k : Circumstances) (w : World) : World :=
  if k.failureRecorded then recordCall c hash (py "FAILED") none w else w

/-- `call`: whether it returns, and the world after it. -/
def call (c : Call) (k : Circumstances) (w : World) : Bool × World :=
  match sha256Obj P (makeEnvelope c) with
  | .error _ => (false, w)
  | .ok hash =>
    if k.audited then
      let answer := dispatch P c hash k w
      match answer.1 with
      | some result =>
        if k.recorded then
          let done := recordCall c hash result.status (some result) answer.2
          if k.completed then (true, done) else (false, failed c hash k done)
        else (false, failed c hash k answer.2)
      | none => (false, failed c hash k answer.2)
    else (false, w)

-- == conditions

def first? (past : List Call) (id : PyStr) : Option Call :=
  past.find? fun c => decide (c.requestId = id)

/-- The row of the request id, if there is one, has the hash of the call. -/
def sameHash (c : Call) (w : World) : Prop :=
  ∀ row ∈ w.calls, row.requestId = c.requestId → sha256Obj P (makeEnvelope c) = .ok row.requestHash

/-- A call that does nothing under a request id another call has used: a local one does not come
to the engine, and a staged one finds another request, or is the request its id stands for. -/
def Harmless (past : List Call) (w : World) (c : Call) (k : Circumstances) : Prop :=
  match c.provider with
  | .local => first? past c.requestId = none ∨ refused c k = true
  | .github =>
    c.capability ∉ githubAutoOperations ∨ (∃ existing, w.file? (P.path c.requestId) = some existing
        ∧ existing.text .canonical ≠ (providerRequest c).text .canonical)
      ∨ sameHash P c w ∧ ((w.file? (P.path c.requestId)).isSome = true
        ∨ ∀ c', first? past c.requestId = some c' → c'.content = c.content)
  | .unknown _ => True

/-- A run of harmless calls: the calls, and the world after them. -/
inductive Reaches : List Call → World → Prop
  | start : Reaches [] .empty
  | step {past w} (c : Call) (k : Circumstances) (h : Reaches past w)
      (hharmless : Harmless P past w c k) : Reaches (past ++ [c]) (call P c k w).2

end Steps

-- == rows

section Rows

variable {P : Platform} {c : Call} {hash : Text} {k : Circumstances} {w : World}
  {status : PyStr} {result : Option Result}

@[simp] theorem recordCall_executed :
    (recordCall c hash status result w).executed = w.executed := by
  unfold recordCall
  split <;> rfl

@[simp] theorem recordCall_staged : (recordCall c hash status result w).staged = w.staged := by
  unfold recordCall
  split <;> rfl

@[simp] theorem failed_executed : (failed c hash k w).executed = w.executed := by
  unfold failed
  split
  · exact recordCall_executed
  · rfl

@[simp] theorem failed_staged : (failed c hash k w).staged = w.staged := by
  unfold failed
  split
  · exact recordCall_staged
  · rfl

theorem mem_recordCall {row : CallRow} (h : row ∈ (recordCall c hash status result w).calls) :
    row ∈ w.calls ∨ (∃ old ∈ w.calls, old.requestId = c.requestId ∧ row.requestId = c.requestId
        ∧ row.requestHash = old.requestHash ∧ row.result = result)
      ∨ row.requestId = c.requestId ∧ row.requestHash = hash ∧ row.result = result := by
  unfold recordCall at h
  split at h
  · obtain ⟨old, hold, heq⟩ := List.mem_map.mp h
    split at heq
    · next hid =>
      subst heq
      exact .inr (.inl ⟨old, hold, hid, hid, rfl, rfl⟩)
    · exact .inl (heq ▸ hold)
  · rcases List.mem_append.mp h with h | h
    · exact .inl h
    · rw [List.mem_singleton.mp h]
      exact .inr (.inr ⟨rfl, rfl, rfl⟩)

/-- Every row pairs its result with the hash it belongs to. -/
def Paired (w : World) : Prop :=
  ∀ row ∈ w.calls, ∀ r, row.result = some r → r.requestHash = row.requestHash

def Made (past : List Call) (w : World) : Prop :=
  ∀ row ∈ w.calls, ∃ c, first? past row.requestId = some c

theorem Paired.failed (h : Paired w) : Paired (failed c hash k w) := by
  unfold Hermes.failed
  split
  · intro row hrow r hr
    rcases mem_recordCall hrow with hrow | ⟨_, -, -, -, -, hnone⟩ | ⟨-, -, hnone⟩
    · exact h row hrow r hr
    · rw [hnone] at hr
      cases hr
    · rw [hnone] at hr
      cases hr
  · exact h

theorem Paired.recorded {r : Result} (h : Paired w) (hr : r.requestHash = hash)
    (hsame : ∀ row ∈ w.calls, row.requestId = c.requestId → row.requestHash = hash) :
    Paired (recordCall c hash status (some r) w) := by
  intro row hrow r' hr'
  rcases mem_recordCall hrow with hrow | ⟨old, hold, hid, -, hhash, hresult⟩
    | ⟨-, hhash, hresult⟩
  · exact h row hrow r' hr'
  · rw [hresult] at hr'
    cases hr'
    rw [hr, hhash, hsame old hold hid]
  · rw [hresult] at hr'
    cases hr'
    rw [hr, hhash]

theorem Made.recorded {past : List Call} (h : Made past w)
    (hc : ∃ c', first? past c.requestId = some c') :
    Made past (recordCall c hash status result w) := by
  intro row hrow
  rcases mem_recordCall hrow with hrow | ⟨_, -, -, hid, -, -⟩ | ⟨hid, -, -⟩
  · exact h row hrow
  · rw [hid]
    exact hc
  · rw [hid]
    exact hc

theorem Made.failed {past : List Call} (h : Made past w)
    (hc : ∃ c', first? past c.requestId = some c') : Made past (failed c hash k w) := by
  unfold Hermes.failed
  split
  · exact h.recorded hc
  · exact h

end Rows

-- == first

theorem first?_append {past : List Call} {id : PyStr} {c c' : Call}
    (h : first? past id = some c') : first? (past ++ [c]) id = some c' := by
  unfold first? at h ⊢
  rw [List.find?_append, h, Option.some_or]

theorem first?_new {past : List Call} {c : Call} (h : first? past c.requestId = none) :
    first? (past ++ [c]) c.requestId = some c := by
  unfold first? at h ⊢
  rw [List.find?_append, h, Option.none_or]
  exact List.find?_cons_of_pos (p := fun c' : Call => decide (c'.requestId = c.requestId))
    (decide_eq_true rfl)

theorem first?_id {past : List Call} {id : PyStr} {c : Call} (h : first? past id = some c) :
    c.requestId = id :=
  of_decide_eq_true (List.find?_some (p := fun c : Call => decide (c.requestId = id)) h)

theorem first?_self (past : List Call) (c : Call) :
    ∃ c', first? (past ++ [c]) c.requestId = some c' := by
  cases h : first? past c.requestId with
  | none => exact ⟨c, first?_new h⟩
  | some c' => exact ⟨c', first?_append h⟩

theorem providerRequest_inj {c c' : Call} (h : providerRequest c = providerRequest c') :
    c.requestId = c'.requestId ∧ c.content = c'.content := by
  simp only [providerRequest, Json.obj.injEq, List.cons.injEq, Prod.mk.injEq, Json.str.injEq,
    true_and, and_true] at h
  obtain ⟨harguments, hcontext, -, hoperation⟩ := h
  exact ⟨hcontext, Prod.ext hoperation harguments⟩

-- == invariant

section Runs

variable {P : Platform}

/-- What holds of a world after some calls. -/
structure Kept (P : Platform) (past : List Call) (w : World) : Prop where
  apart : w.executed.Pairwise fun a b => a.requestId ≠ b.requestId
  origin : ∀ x ∈ w.executed, ∃ c, first? past x.requestId = some c
  staged : ∀ f ∈ w.staged, ∃ c, first? past c.requestId = some c ∧ f.2 = providerRequest c
  made : Made past w
  paired : Paired w

theorem Kept.append {past : List Call} {w : World} (h : Kept P past w) (c : Call) :
    Kept P (past ++ [c]) w where
  apart := h.apart
  origin := by
    intro x hx
    obtain ⟨c', hc'⟩ := h.origin x hx
    exact ⟨c', first?_append hc'⟩
  staged := by
    intro f hf
    obtain ⟨c', hc', heq⟩ := h.staged f hf
    exact ⟨c', first?_append hc', heq⟩
  made := by
    intro row hrow
    obtain ⟨c', hc'⟩ := h.made row hrow
    exact ⟨c', first?_append hc'⟩
  paired := h.paired

theorem Kept.failed {past : List Call} {w : World} {c : Call} {hash : Text} {k : Circumstances}
    (h : Kept P past w) (hc : ∃ c', first? past c.requestId = some c') :
    Kept P past (failed c hash k w) where
  apart := by
    rw [failed_executed]
    exact h.apart
  origin := by
    rw [failed_executed]
    exact h.origin
  staged := by
    rw [failed_staged]
    exact h.staged
  made := h.made.failed hc
  paired := h.paired.failed

theorem Kept.recorded {past : List Call} {w : World} {c : Call} {hash : Text} {status : PyStr}
    {r : Result} (h : Kept P past w) (hc : ∃ c', first? past c.requestId = some c')
    (hr : r.requestHash = hash)
    (hsame : ∀ row ∈ w.calls, row.requestId = c.requestId → row.requestHash = hash) :
    Kept P past (recordCall c hash status (some r) w) where
  apart := by
    rw [recordCall_executed]
    exact h.apart
  origin := by
    rw [recordCall_executed]
    exact h.origin
  staged := by
    rw [recordCall_staged]
    exact h.staged
  made := h.made.recorded hc
  paired := h.paired.recorded hr hsame

theorem file?_mem {w : World} {path : PyStr} {d : Json} (h : w.file? path = some d) :
    ∃ f ∈ w.staged, f.2 = d := by
  obtain ⟨f, hf, rfl⟩ := Option.map_eq_some_iff.mp h
  exact ⟨f, List.mem_of_find?_eq_some hf, rfl⟩

theorem Kept.dispatch {past : List Call} {w : World} {c : Call} {hash : Text} {k : Circumstances}
    (h : Kept P past w) (hharmless : Harmless P past w c k)
    (hhash : sha256Obj P (makeEnvelope c) = .ok hash) :
    Kept P (past ++ [c]) (Hermes.dispatch P c hash k w).2
      ∧ ∀ r, (Hermes.dispatch P c hash k w).1 = some r → r.requestHash = hash
        ∧ ∀ row ∈ (Hermes.dispatch P c hash k w).2.calls, row.requestId = c.requestId →
          row.requestHash = hash := by
  have hkept := h.append c
  have hof : sameHash P c w → ∀ row ∈ w.calls, row.requestId = c.requestId →
      row.requestHash = hash := by
    intro hsame row hrow hid
    exact (Except.ok.inj (hhash.symm.trans (hsame row hrow hid))).symm
  unfold Harmless at hharmless
  unfold Hermes.dispatch
  split
  · next hprovider =>
    simp only [hprovider] at hharmless
    unfold executeLocal
    split
    · exact ⟨hkept, nofun⟩
    · next hgoes =>
      rw [Bool.or_eq_true, not_or] at hgoes
      have hfirst := hharmless.resolve_right hgoes.1
      have hnone : ∀ c', first? past c.requestId ≠ some c' := by
        rw [hfirst]
        exact nofun
      refine ⟨⟨?_, ?_, hkept.staged, hkept.made, hkept.paired⟩, fun r hr => ⟨?_, ?_⟩⟩
      · refine List.pairwise_append.mpr ⟨h.apart, List.pairwise_singleton _ _, ?_⟩
        intro x hx y hy heq
        rw [List.mem_singleton.mp hy] at heq
        obtain ⟨c', hc'⟩ := h.origin x hx
        exact hnone c' (heq ▸ hc')
      · intro x hx
        rcases List.mem_append.mp hx with hx | hx
        · exact hkept.origin x hx
        · rw [List.mem_singleton.mp hx]
          exact first?_self past c
      · obtain ⟨job, -, rfl⟩ := Option.map_eq_some_iff.mp hr
        rfl
      · intro row hrow hid
        obtain ⟨c', hc'⟩ := h.made row hrow
        exact absurd (hid ▸ hc') (hnone c')
  · next hprovider =>
    simp only [hprovider] at hharmless
    unfold stageConnected
    split
    · exact ⟨hkept, nofun⟩
    · next hallowed =>
      replace hharmless := hharmless.resolve_left hallowed
      split
      · next existing hfile =>
        split
        · exact ⟨hkept, nofun⟩
        · next htext =>
          refine ⟨hkept, fun r hr => ?_⟩
          cases hr
          rcases hharmless with ⟨existing', hfile', hother⟩ | ⟨hsame, -⟩
          · cases hfile.symm.trans hfile'
            exact absurd hother htext
          · exact ⟨rfl, hof hsame⟩
      · next hfile =>
        split
        · rcases hharmless with ⟨existing', hfile', -⟩ | ⟨hsame, hcontent⟩
          · cases hfile.symm.trans hfile'
          · replace hcontent := hcontent.resolve_left (by rw [hfile]; exact Bool.noConfusion)
            refine ⟨⟨hkept.apart, hkept.origin, ?_, hkept.made, hkept.paired⟩, fun r hr => ?_⟩
            · intro f hf
              rcases List.mem_append.mp hf with hf | hf
              · exact hkept.staged f hf
              · rw [List.mem_singleton.mp hf]
                cases hfirst : first? past c.requestId with
                | none => exact ⟨c, first?_new hfirst, rfl⟩
                | some c' =>
                  have hid := first?_id hfirst
                  refine ⟨c', ?_, ?_⟩
                  · rw [hid]
                    exact first?_append hfirst
                  · obtain ⟨hcap, harguments⟩ := Prod.mk.inj (hcontent c' hfirst)
                    unfold providerRequest
                    rw [hid, hcap, harguments]
            · cases hr
              exact ⟨rfl, hof hsame⟩
        · exact ⟨hkept, nofun⟩
  · exact ⟨hkept, nofun⟩

theorem Kept.call {past : List Call} {w : World} {c : Call} {k : Circumstances}
    (h : Kept P past w) (hharmless : Harmless P past w c k) :
    Kept P (past ++ [c]) (call P c k w).2 := by
  unfold Hermes.call
  split
  · exact h.append c
  · next hash hhash =>
    split
    · obtain ⟨hkept, hresult⟩ := h.dispatch hharmless hhash
      have hself := first?_self past c
      dsimp only
      split
      · next result hanswer =>
        obtain ⟨hr, hsame⟩ := hresult result hanswer
        split
        · have hrecorded : Kept P (past ++ [c])
              (recordCall c hash result.status (some result) (Hermes.dispatch P c hash k w).2) :=
            hkept.recorded hself hr hsame
          split
          · exact hrecorded
          · exact hrecorded.failed hself
        · exact hkept.failed hself
      · exact hkept.failed hself
    · exact h.append c

theorem Reaches.kept {past : List Call} {w : World} (h : Reaches P past w) : Kept P past w := by
  induction h with
  | start =>
    exact ⟨List.Pairwise.nil, nofun, nofun, nofun, nofun⟩
  | step c k _ hharmless ih => exact ih.call hharmless

theorem call_refused {w : World} {c : Call} {k : Circumstances}
    (h : ∀ hash, dispatch P c hash k w = (none, w)) :
    (call P c k w).1 = false ∧ (call P c k w).2.executed = w.executed
      ∧ (call P c k w).2.staged = w.staged := by
  unfold Hermes.call
  split
  · exact ⟨rfl, rfl, rfl⟩
  · next hash _ =>
    split
    · simp only [h hash, failed_executed, failed_staged, and_self]
    · exact ⟨rfl, rfl, rfl⟩

theorem Kept.dispatch_other {past : List Call} {w : World} {c c' : Call} {k : Circumstances}
    (h : Kept P past w) (hharmless : Harmless P past w c k)
    (hfirst : first? past c.requestId = some c') (hother : c'.content ≠ c.content)
    (hash : Text) : Hermes.dispatch P c hash k w = (none, w) := by
  unfold Harmless at hharmless
  unfold Hermes.dispatch
  split
  · next hprovider =>
    simp only [hprovider, hfirst, reduceCtorEq, false_or] at hharmless
    rw [executeLocal, hharmless, Bool.true_or, if_pos rfl]
  · next hprovider =>
    simp only [hprovider] at hharmless
    unfold stageConnected
    split
    · rfl
    · next hallowed =>
      replace hharmless := hharmless.resolve_left hallowed
      split
      · next existing hfile =>
        split
        · rfl
        · next htext =>
          -- the file is of the first call under its id, which is the first under this one
          obtain ⟨f, hf, hfd⟩ := file?_mem hfile
          obtain ⟨c₀, hc₀, hrequest⟩ := h.staged f hf
          have hsame := text_injective (Decidable.not_not.mp htext)
          rw [← hfd, hrequest] at hsame
          obtain ⟨hid, hcontent⟩ := providerRequest_inj hsame
          rw [hid, hfirst] at hc₀
          exact absurd (Option.some.inj hc₀ ▸ hcontent) hother
      · next hfile =>
        rcases hharmless with ⟨existing', hfile', -⟩ | ⟨-, hcontent⟩
        · cases hfile.symm.trans hfile'
        · replace hcontent := hcontent.resolve_left (by rw [hfile]; exact Bool.noConfusion)
          exact absurd (hcontent c' hfirst) hother
  · rfl

/-- In a run of harmless calls a request id and its content are executed at most once, a harmless
call with other content is rejected without doing anything, and every row pairs its result with
the hash it belongs to. -/
theorem calls_idempotent {past : List Call} {w : World} (h : Reaches P past w) :
    (w.executed.Pairwise fun a b => ¬ (a.requestId = b.requestId ∧ a.content = b.content))
      ∧ (∀ c k c', first? past c.requestId = some c' → c'.content ≠ c.content →
        Harmless P past w c k → (call P c k w).1 = false ∧ (call P c k w).2.executed = w.executed
            ∧ (call P c k w).2.staged = w.staged)
      ∧ ∀ row ∈ w.calls, ∀ r, row.result = some r → r.requestHash = row.requestHash := by
  have hkept := h.kept
  refine ⟨hkept.apart.imp fun hne heq => hne heq.1, ?_, hkept.paired⟩
  intro c k c' hfirst hother hharmless
  exact call_refused (hkept.dispatch_other hharmless hfirst hother)

end Runs

namespace Sample

private def platform : Platform := ⟨id, id⟩

private def echo : Call :=
  ⟨py "system.echo", [], py "hermes", .local, py "r", none, false⟩

private def answered : Circumstances :=
  ⟨true, true, true, true, some (py "j", py "verified"), true, true, true, true⟩

theorem echo_twice :
    (call platform echo answered (call platform echo answered .empty).2).2.executed.map
        (fun c => (c.requestId, c.capability, c.arguments.isEmpty))
      = [(py "r", py "system.echo", true), (py "r", py "system.echo", true)] := by
  decide +kernel

theorem echo_once : ((call platform echo answered .empty).2.executed.Pairwise
      fun a b => ¬ (a.requestId = b.requestId ∧ a.content = b.content))
      ∧ ∀ row ∈ (call platform echo answered .empty).2.calls, ∀ r, row.result = some r →
        r.requestHash = row.requestHash :=
  have h := calls_idempotent (.step echo answered .start (.inl rfl) :
    Reaches platform ([] ++ [echo]) (call platform echo answered .empty).2)
  ⟨h.1, h.2.2⟩

end Sample

end Centinal26.Hermes
