/-
The runtime gate is sound: whatever the history of the store, a task that passes refers
to the objective of the last record that came to `EXECUTE` for it, and to a token the
guardian has put for just that objective, root and task.
-/
import Centinal26.Governance.Histories

namespace Centinal26.Governance

open Py Steps Objects

variable {τ : Type}

-- == what is asked

/-- What `evaluate` asks of a proposal before it comes to `EXECUTE`. -/
structure MayExecute (r : Registry) (p : Proposal) (accepted : Bool) : Prop where
  named : strip p.objectiveId ≠ []
  written : strip p.text ≠ []
  owner : p.source = .owner ∨ p.source = .ownerPolicy
  root : p.rootObjective ∈ r.canonicalRoots
  permitted : ∀ c ∈ r.forbiddenCapabilities, c ∉ p.requestedCapabilities
  verified : accepted = true

variable {p : Proposal} {d : RuntimeDecision} {s actionName : PyStr} {db : Db τ}
  {task : List (PyKey × PyVal)}

variable {r : Registry} {token o : StoredObject τ} {row : ObjectRow τ} {fields : Fields}
  {objectiveId rootObjective tokenId : PyStr}

theorem forbidden_eq_nil (h : r.forbidden p = []) :
    ∀ c ∈ r.forbiddenCapabilities, c ∉ p.requestedCapabilities := by
  intro c hc hrequested
  have hmem : c ∈ r.forbidden p :=
    List.mem_eraseDups.mpr (List.mem_filter.mpr ⟨hc, decide_eq_true hrequested⟩)
  rw [h] at hmem
  cases hmem

theorem mayExecute {accepted : Bool}
    (h : (r.evaluate p accepted).decision = .execute) : MayExecute r p accepted := by
  unfold Registry.evaluate at h
  split at h
  · cases h
  · next hid =>
    split at h
    · cases h
    · next htext =>
      split at h
      · cases h
      · next hsource =>
        split at h
        · cases h
        · next hroot =>
          split at h
          · cases h
          · next hforbidden =>
            split at h
            · cases h
            · next haccepted =>
              refine ⟨hid, htext, ?_, not_not.mp hroot,
                forbidden_eq_nil (not_not.mp hforbidden), by simpa using haccepted⟩
              cases hp : p.source <;> rw [hp] at hsource <;> simp_all [Source.isExecutable]

structure Permits (token : CapabilityToken) (action : Action) : Prop where
  name : action.name ∈ token.allowedActions
  destructive : action.destructive = true → token.destructiveActions = true
  destination : action.requiresNetwork = true →
    ∃ host, action.destination = some host ∧ host ≠ [] ∧ host ∈ token.networkScope
  secret : ∀ s, action.secretId = some s → s ≠ [] → s ∈ token.allowedSecrets

theorem permits {token : CapabilityToken} {action : Action}
    (h : executionGate token action = true) : Permits token action := by
  unfold executionGate at h
  split at h
  · cases h
  · next hname =>
    split at h
    · cases h
    · next hdestructive =>
      split at h
      · cases h
      · next hnetwork =>
        refine ⟨not_not.mp hname, fun hd => ?_, fun hn => ?_, fun s hs hblank => ?_⟩
        · rw [hd] at hdestructive
          simpa using hdestructive
        · rw [hn] at hnetwork
          cases hdest : action.destination with
          | none =>
            rw [hdest] at hnetwork
            exact absurd rfl hnetwork
          | some host =>
            rw [hdest] at hnetwork
            exact ⟨host, rfl, by simpa using hnetwork⟩
        · rw [hs] at h
          by_contra hmem
          simp [hmem, hblank] at h

-- == bodies

theorem nodup_envelope (kind payload : PyVal) :
    (([(py "schema", .int 1), (py "kind", kind), (py "payload", payload)] :
      List (PyStr × PyVal)).map Prod.fst).Nodup := by
  show [py "schema", py "kind", py "payload"].Nodup
  decide

theorem body_payload {kind : PyStr} {payload : PyVal} (h : bodyOf kind payload = .ok row.body) :
    ∃ d, dumps payload = .ok d ∧ row.payload? = some d.load := by
  obtain ⟨fields, hfields, hget⟩ := fields_of_dumps (nodup_envelope _ payload) h
  obtain ⟨d, hd, hpayload⟩ := hget (py "payload") payload
    (List.mem_cons_of_mem _ (List.mem_cons_of_mem _ (List.mem_cons_self ..)))
  refine ⟨d, hd, ?_⟩
  unfold ObjectRow.payload?
  rw [hfields, Option.bind_some, hpayload, Option.map_some, Option.some_inj]
  exact Doc.ext (normalise_eq _ (isNormal_normalise d))

theorem get?_str {ms : List (PyStr × PyVal)} {d : Json} {key : PyStr}
    (hnames : (ms.map Prod.fst).Nodup) (h : dumps (.dict (strItems ms)) = .ok d)
    (hfields : d.load.fields? = some fields) (hmem : (key, PyVal.str s) ∈ ms) :
    fields.get? key = some (.str s) := by
  obtain ⟨fields', hfields', hget⟩ := fields_of_dumps hnames h
  rw [hfields] at hfields'
  cases hfields'
  obtain ⟨d', hd', hkey⟩ := hget key _ hmem
  cases hd'
  exact hkey

theorem nodup_authorizedMembers (p : Proposal) (decisionId : Text) :
    ((p.authorizedMembers decisionId).map Prod.fst).Nodup := by
  show [py "objective_id", py "text", py "source", py "source_ref", py "root_objective",
    py "parent_objective_id", py "requested_capabilities", py "authorization_ref",
    py "evaluation_object_id"].Nodup
  decide

theorem authorized_identity {decisionId : Text} {d : Doc}
   
    (h : authorizedBody p decisionId = .ok row.body) (hd : row.payload? = some d)
    (hfields : d.fields? = some fields)
    (hid : fieldText? fields "objective_id" = some objectiveId)
    (hroot : fieldText? fields "root_objective" = some rootObjective) :
    objectiveId = p.objectiveId ∧ rootObjective = p.rootObjective := by
  obtain ⟨body, hbody, hpayload⟩ := body_payload h
  rw [hd] at hpayload
  cases hpayload
  have hnames := nodup_authorizedMembers p decisionId
  have hread : ∀ {key : String} {s t : PyStr},
      (py key, PyVal.str s) ∈ p.authorizedMembers decisionId →
      fieldText? fields key = some t → t = s := by
    intro key s t hmem ht
    unfold fieldText? at ht
    rw [get?_str hnames hbody hfields hmem] at ht
    simp only [Option.bind_some, Json.str?, text?] at ht
    split at ht
    · cases ht
    · cases ht
      rfl
  refine ⟨hread ?_ hid, hread ?_ hroot⟩ <;> simp [Proposal.authorizedMembers, Proposal.members]

-- == reads

theorem get_ok (h : db.get s = .ok o) :
    ∃ row ∈ db.objects.rows, row.objectId.str = s ∧ o.objectId = row.objectId
      ∧ row.payload? = some o.payload := by
  unfold Db.get at h
  obtain ⟨id, hid, h⟩ := of_bind_ok h
  split at h
  · cases h
  · next row hrow =>
    split at h
    · cases h
    · next payload hpayload =>
      cases h
      refine ⟨row, Table.mem_of_find? hrow, ?_, rfl, hpayload⟩
      rw [Table.key_of_find? hrow]
      exact encode_eq_ok.mp (bound_ok hid)

theorem resolve_ok (h : db.resolve s = .ok o) :
    ∃ name id, name.str = s ∧ db.current? name = some id ∧ id = o.objectId := by
  unfold Db.resolve at h
  obtain ⟨name, hname, h⟩ := of_bind_ok h
  split at h
  · cases h
  · next id hid =>
    obtain ⟨row, -, hrow, hobject, -⟩ := get_ok h
    exact ⟨name, id, encode_eq_ok.mp (bound_ok hname), hid, Text.ext (by rw [hobject, hrow])⟩

theorem hasProvenance_ok {id : Text} {sourceType evidenceClass : String}
    (h : hasProvenance db id.str sourceType evidenceClass = .ok true) :
    ∃ row ∈ db.provenance, row.objectId = id ∧ row.sourceType.str = py sourceType := by
  unfold hasProvenance Db.provenanceOf at h
  obtain ⟨rows, hrows, h⟩ := of_bind_ok h
  obtain ⟨id', hid, hrows⟩ := of_bind_ok hrows
  cases hrows
  injection h with h
  obtain ⟨row, hrow, hmatch⟩ := List.any_eq_true.mp h
  rw [Bool.and_eq_true, decide_eq_true_eq, decide_eq_true_eq] at hmatch
  obtain ⟨hmem, hobject⟩ := List.mem_filter.mp hrow
  rw [decide_eq_true_eq] at hobject
  exact ⟨row, hmem, hobject.trans (Text.ext (encode_eq_ok.mp (bound_ok hid))), hmatch.1⟩

-- == gate

theorem exceptKeyError_some {α : Type} {x : Except StoreError α} {a : α}
    (h : exceptKeyError x = .ok (some a)) : x = .ok a := by
  unfold exceptKeyError at h
  split at h
  · cases h
    rfl
  · cases h
  · cases h

theorem checkToken_allowed
   
   
    (h : checkToken db task actionName tokenId token objectiveId rootObjective = .ok d)
    (hallowed : d.allowed = true) :
    hasProvenance db tokenId "guardian" "CAPABILITY_AUTHORIZATION" = .ok true
      ∧ d.objectiveId = some objectiveId
      ∧ ∃ cap, capabilityToken token.payload = some cap ∧ cap.objectiveId = objectiveId
        ∧ cap.rootObjective = rootObjective ∧ itemText? task "task_id" = some cap.taskId
        ∧ executionGate cap (requestedAction task actionName) = true := by
  unfold checkToken at h
  obtain ⟨guarded, hguarded, h⟩ := of_bind_ok h
  split at h
  · cases h
    cases hallowed
  · next hprovenance =>
    split at h
    · cases h
      cases hallowed
    · next cap hcap =>
      split at h
      · cases h
        cases hallowed
      · next hbinding =>
        split at h
        · cases h
          cases hallowed
        · next htask =>
          split at h
          · cases h
            cases hallowed
          · next hscope =>
            cases h
            rw [not_or, not_not, not_not] at hbinding
            refine ⟨?_, rfl, cap, hcap, hbinding.1, hbinding.2, not_not.mp htask, ?_⟩
            · rw [hguarded]
              simpa using hprovenance
            · simpa using hscope

theorem checkObjective_allowed {authorizedId evaluationId : PyStr} {authorized evaluation : Fields}
    (h : checkObjective db task actionName authorizedId evaluationId tokenId token authorized
      evaluation = .ok d) (hallowed : d.allowed = true) :
    ∃ objectiveId rootObjective current, fieldText? authorized "objective_id" = some objectiveId
      ∧ fieldText? authorized "root_objective" = some rootObjective
      ∧ db.resolve (py "objective/current/" ++ objectiveId) = .ok current
      ∧ current.objectId.str = authorizedId
      ∧ checkToken db task actionName tokenId token objectiveId rootObjective = .ok d := by
  unfold checkObjective at h
  split at h
  · next objectiveId rootObjective hid hroot =>
    split at h
    · cases h
      cases hallowed
    · split at h
      · cases h
        cases hallowed
      · obtain ⟨guarded, -, h⟩ := of_bind_ok h
        split at h
        · cases h
          cases hallowed
        · obtain ⟨found, hfound, h⟩ := of_bind_ok h
          split at h
          · cases h
            cases hallowed
          · next current =>
            split at h
            · cases h
              cases hallowed
            · next hcurrent =>
              exact ⟨objectiveId, rootObjective, current, hid, hroot,
                exceptKeyError_some hfound, not_not.mp hcurrent, h⟩
  · cases h
    cases hallowed

theorem verify_allowed (h : verifyRuntimeObjectiveContext db task actionName = .ok d)
    (hallowed : d.allowed = true) :
    ∃ context authorizedId evaluationId tokenId authorized token fields evaluation,
      item? task "objective_context" = some (.dict context)
      ∧ itemText? context "authorized_objective_id" = some authorizedId
      ∧ itemText? context "capability_token_id" = some tokenId
      ∧ db.get authorizedId = .ok authorized ∧ db.get tokenId = .ok token
      ∧ authorized.payload.fields? = some fields
      ∧ checkObjective db task actionName authorizedId evaluationId tokenId token fields
        evaluation = .ok d := by
  unfold verifyRuntimeObjectiveContext at h
  split at h
  · next context hcontext =>
    split at h
    · next authorizedId evaluationId tokenId hauthorized hevaluation htoken =>
      obtain ⟨found, hfound, h⟩ := of_bind_ok h
      split at h
      · cases h
        cases hallowed
      · next authorized evaluation token =>
        replace hfound := exceptKeyError_some hfound
        unfold getThree at hfound
        obtain ⟨authorized', hgetAuthorized, hfound⟩ := of_bind_ok hfound
        obtain ⟨evaluation', -, hfound⟩ := of_bind_ok hfound
        obtain ⟨token', hgetToken, hfound⟩ := of_bind_ok hfound
        cases hfound
        split at h
        · cases h
          cases hallowed
        · split at h
          · cases h
            cases hallowed
          · split at h
            · cases h
              cases hallowed
            · split at h
              · next fields fields' hfields hfields' =>
                exact ⟨context, authorizedId, evaluationId, tokenId, authorized, token, fields,
                  fields', hcontext, hauthorized, htoken, hgetAuthorized, hgetToken, hfields, h⟩
              · cases h
                cases hallowed
    · cases h
      cases hallowed
  · cases h
    cases hallowed

-- == soundness

/-- The record authorizes the proposal under the identifier. -/
def Promotes (H : Host) (r : Registry) (p : Proposal) (accepted : Bool) (id : Text)
    (e : Step τ) : Prop :=
  ∃ decisionId body, Executed r p accepted decisionId e ∧ authorizedBody p decisionId = .ok body
    ∧ digest H body = some id

def tokenOf (payload : PyVal) : Option CapabilityToken :=
  (dumps payload).toOption.bind fun d => capabilityToken d.load

section Sound

variable {H : Host} {F : Floats τ} {ops : List (Op τ)}

theorem mem_bodies {body : Json}
    (h : ∃ e ∈ Machine.trace (perform H F) ops Db.empty, body ∈ e.input.bodies H) :
    body ∈ ops.flatMap (Op.bodies H) := by
  obtain ⟨e, he, hbody⟩ := h
  exact List.mem_flatMap.mpr ⟨e.input, Machine.input_mem_of_mem_trace _ he, hbody⟩

theorem body_unique (hfree : CollisionFree H ops) {row : ObjectRow τ} {body : Json}
    (hrow : row ∈ (Machine.exec (perform H F) ops Db.empty).objects.rows)
    (hbody : body ∈ ops.flatMap (Op.bodies H)) (hid : digest H body = some row.objectId) :
    body = row.body := by
  obtain ⟨hstored, haddress⟩ := (storeOk ops).addressed row hrow
  exact hfree _ hbody _ (mem_bodies hstored) _ hid haddress

theorem token_guarded (hfree : CollisionFree H ops) {tokenId : PyStr} {token : StoredObject τ}
    {cap : CapabilityToken}
    (hget : (Machine.exec (perform H F) ops Db.empty).get tokenId = .ok token)
    (hprovenance : hasProvenance (Machine.exec (perform H F) ops Db.empty) tokenId "guardian"
      "CAPABILITY_AUTHORIZATION" = .ok true)
    (hcap : capabilityToken token.payload = some cap) :
    ∃ e ∈ Machine.trace (perform H F) ops Db.empty, ∃ payload id, id.str = tokenId
      ∧ Guards H payload id e ∧ tokenOf payload = some cap := by
  obtain ⟨row, hrow, rfl, -, hpayload⟩ := get_ok hget
  obtain ⟨attested, hattested, hobject, hsource⟩ := hasProvenance_ok hprovenance
  obtain ⟨e, he, payload, hguards⟩ := (storeOk ops).guarded attested hattested hsource
  rw [hobject] at hguards
  obtain ⟨sourceRef, now, body, hin, hout, hbody, hid⟩ := hguards
  have hmem : body ∈ ops.flatMap (Op.bodies H) := by
    refine mem_bodies ⟨e, he, ?_⟩
    rw [hin]
    exact mem_written hbody
  obtain rfl := body_unique hfree hrow hmem hid
  obtain ⟨d, hd, hread⟩ := body_payload hbody
  refine ⟨e, he, payload, row.objectId, rfl, ⟨sourceRef, now, _, hin, hout, hbody, hid⟩, ?_⟩
  unfold tokenOf
  rw [hpayload, Option.some_inj] at hread
  rw [hd, Except.toOption, Option.bind_some, ← hread]
  exact hcap

theorem objective_current (hfree : CollisionFree H ops) {authorizedId objectiveId : PyStr}
    {authorized current : StoredObject τ} {fields : Fields} {rootObjective : PyStr}
    (hget : (Machine.exec (perform H F) ops Db.empty).get authorizedId = .ok authorized)
    (hfields : authorized.payload.fields? = some fields)
    (hid : fieldText? fields "objective_id" = some objectiveId)
    (hroot : fieldText? fields "root_objective" = some rootObjective)
    (hresolve : (Machine.exec (perform H F) ops Db.empty).resolve
      (py "objective/current/" ++ objectiveId) = .ok current)
    (hcurrent : current.objectId.str = authorizedId) :
    ∃ r p accepted id, id.str = authorizedId ∧ p.objectiveId = objectiveId
      ∧ p.rootObjective = rootObjective ∧ strip p.currentName = p.currentName
      ∧ (Machine.trace (perform H F) ops Db.empty).Since (Promotes H r p accepted id)
        (Moves p.currentName) := by
  obtain ⟨row, hrow, hrowId, -, hpayload⟩ := get_ok hget
  obtain ⟨name, id, hname, hpoints, rfl⟩ := resolve_ok hresolve
  obtain ⟨pre, e, post, htrace, hnames, hpost⟩ := (storeOk ops).current name _ hpoints
  obtain ⟨r, p, accepted, decisionId, body, hexecuted, hkey, hbody, hmem, hdigest⟩ := hnames
  have hsame : current.objectId = row.objectId := Text.ext (by rw [hcurrent, hrowId])
  have hput : body ∈ ops.flatMap (Op.bodies H) :=
    mem_bodies ⟨e, by rw [htrace]; exact List.mem_append_right _ (List.mem_cons_self ..), hmem⟩
  obtain rfl := body_unique hfree hrow hput (by rw [hdigest, hsame])
  obtain ⟨rfl, rfl⟩ := authorized_identity hbody hpayload hfields hid hroot
  refine ⟨r, p, accepted, current.objectId, hcurrent, rfl, rfl, ?_,
    pre, e, post, htrace, ⟨decisionId, _, hexecuted, hbody, hdigest⟩, ?_⟩
  · rw [hkey, hname]
    rfl
  · intro e' he' hmoves
    refine hpost e' he' ?_
    rw [hname]
    exact hmoves

end Sound

/-- The gate is sound over whole histories. -/
theorem gate_sound (H : Host) (F : Floats τ) (ops : List (Op τ)) (hfree : CollisionFree H ops)
    (task : List (PyKey × PyVal)) (actionName : PyStr) (d : RuntimeDecision)
    (h : verifyRuntimeObjectiveContext (Machine.exec (perform H F) ops Db.empty) task
      actionName = .ok d) (hallowed : d.allowed = true) :
    ∃ context r p accepted id tokenId token, item? task "objective_context" = some (.dict context)
      ∧ itemText? context "authorized_objective_id" = some id.str
      ∧ d.objectiveId = some p.objectiveId
      ∧ strip p.currentName = p.currentName
      ∧ (Machine.trace (perform H F) ops Db.empty).Since (Promotes H r p accepted id)
        (Moves p.currentName)
      ∧ MayExecute r p accepted
      ∧ itemText? context "capability_token_id" = some tokenId.str
      ∧ (∃ e ∈ Machine.trace (perform H F) ops Db.empty, ∃ payload,
        Guards H payload tokenId e ∧ tokenOf payload = some token)
      ∧ token.objectiveId = p.objectiveId ∧ token.rootObjective = p.rootObjective
      ∧ itemText? task "task_id" = some token.taskId
      ∧ Permits token (requestedAction task actionName) := by
  obtain ⟨context, authorizedId, evaluationId, tokenId, authorized, tokenObject, fields,
    evaluation, hcontext, hauthorized, htoken, hgetAuthorized, hgetToken, hfields, h⟩ :=
    verify_allowed h hallowed
  obtain ⟨objectiveId, rootObjective, current, hid, hroot, hresolve, hcurrent, h⟩ :=
    checkObjective_allowed h hallowed
  obtain ⟨hprovenance, hdecision, token, hcap, hobjective, htokenRoot, htask, hscope⟩ :=
    checkToken_allowed h hallowed
  obtain ⟨r, p, accepted, id, rfl, rfl, rfl, hstrip, hsince⟩ :=
    objective_current hfree hgetAuthorized hfields hid hroot hresolve hcurrent
  obtain ⟨e, he, payload, tokenId', rfl, hguards, hreads⟩ :=
    token_guarded hfree hgetToken hprovenance hcap
  obtain ⟨e', -, decisionId, body, hexecuted, -, -⟩ := hsince.exists
  exact ⟨context, r, p, accepted, id, tokenId', token, hcontext, hauthorized, hdecision, hstrip,
    hsince, mayExecute hexecuted.execute, htoken, ⟨e, he, payload, hguards, hreads⟩, hobjective,
    htokenRoot, htask, permits hscope⟩

-- == a history

def deploy (text : String) (source : Source) : Proposal :=
  ⟨py "deploy", py text, source, py "mail", py "root", none, [], none⟩

def firstRegistry : Registry := ⟨[py "root"], [py "self_replicate"]⟩

/-- A token for the deployment, as the guardian puts it. -/
def firstToken : PyVal :=
  .dict [item "task_id" (.str (py "task")), item "objective_id" (.str (py "deploy")),
    item "root_objective" (.str (py "root")), item "allowed_actions" (.list [.str (py "run")])]

/-- The owner's proposal is recorded; then one from the web, for the same objective; and the
guardian puts a token. -/
def firstOps : List (Op Int) :=
  [.record firstRegistry (deploy "the service" .owner) true fun n => n,
    .record firstRegistry (deploy "something else" .web) true fun n => 10 + n,
    .guardianPut firstToken (py "guardian-1") 20]

def firstDb : Db Int :=
  Machine.exec (perform (Host.sample fun n => n) Floats.sample) firstOps Db.empty

/-- The identifier of a body, as a task refers to it. -/
def reference (body : Except PyErr Json) : PyVal :=
  optText ((body.toOption.bind (digest (Host.sample fun n => n))).map Text.str)

def aliasReference (name : PyStr) : PyVal :=
  optText (((encode name).toOption.bind firstDb.current?).map Text.str)

def firstTask : List (PyKey × PyVal) :=
  [item "task_id" (.str (py "task")), item "objective_context" (.dict
      [item "authorized_objective_id" (aliasReference (py "objective/current/deploy")),
        item "objective_evaluation_id" (reference (bodyOf (py "objective_evaluation")
          (.dict (strItems (firstRegistry.evaluate (deploy "the service" .owner) true).members)))),
        item "capability_token_id" (reference (bodyOf (py "capability_token") firstToken))])]

theorem firstOps_collisionFree : CollisionFree (Host.sample fun n => n) firstOps := by
  have hnodup : ((firstOps.flatMap (Op.bodies (Host.sample fun n => n))).map
      (digest (Host.sample fun n => n))).Nodup := by decide +kernel
  intro b hb b' hb' id hid hid'
  exact List.inj_on_of_nodup_map hnodup hb hb' (hid.trans hid'.symm)

theorem gate_sound_firstTask : ∃ d, verifyRuntimeObjectiveContext firstDb firstTask (py "run")
      = .ok d ∧ d.allowed = true
    ∧ ∃ r p accepted id, d.objectiveId = some p.objectiveId ∧ MayExecute r p accepted
      ∧ (Machine.trace (perform (Host.sample fun n => n) Floats.sample) firstOps Db.empty).Since
        (Promotes (Host.sample fun n => n) r p accepted id) (Moves p.currentName) := by
  have hpasses : ((verifyRuntimeObjectiveContext firstDb firstTask (py "run")).toOption.map
      RuntimeDecision.allowed) = some true := by decide +kernel
  cases h : verifyRuntimeObjectiveContext firstDb firstTask (py "run") with
  | error e =>
    rw [h] at hpasses
    cases hpasses
  | ok d =>
    rw [h] at hpasses
    have hallowed : d.allowed = true := Option.some_inj.mp hpasses
    obtain ⟨_, r, p, accepted, id, _, _, -, -, hid, -, hsince, hmay, -⟩ :=
      gate_sound (Host.sample fun n => n) Floats.sample firstOps firstOps_collisionFree
        firstTask (py "run") d h hallowed
    exact ⟨d, rfl, hallowed, r, p, accepted, id, hid, hmay, hsince⟩

end Centinal26.Governance
