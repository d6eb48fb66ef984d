/-
Evidence-gated success, over whole runs of one engine.
-/
import Centinal26.Lib.Machine
import Centinal26.Pipeline.Success

namespace Centinal26.Pipeline

open Py Centinal26.Core Steps

-- == calls

inductive EngineCall : Type
  | register (spec : CapabilitySpec)
  | submit (intent : Intent) (grant : Grant) (idempotencyKey : Option PyStr)
  | runOnce (recoveryTest : Bool)

inductive EngineReply : Type
  | registered
  | submitted (jobId : Text)
  | ran (jobId : Option Text)

/-- An engine and its surroundings. -/
structure Process where
  world : World
  engine : AutomatedEngine

def Process.new (describe : PyErr → PyStr) : Process :=
  ⟨World.init, ⟨0, fun _ => none, describe⟩⟩

/-- The reply of a program, and the process it leaves. -/
def Process.after {α : Type} (p : Process) (reply : α → EngineReply)
    (ran : Except EngineError α × World) : Except EngineError EngineReply × Process :=
  (ran.1.map reply, { p with world := ran.2 })

def engineStep (H : Host) (call : EngineCall) (p : Process) :
    Except EngineError EngineReply × Process :=
  match call with
  | .register spec =>
    match (register H p.engine spec).run p.world with
    | (.ok engine, world) => (.ok .registered, ⟨world, engine⟩)
    | (.error e, world) => (.error e, ⟨world, p.engine⟩)
  | .submit intent grant key =>
    p.after .submitted ((engineSubmit H p.engine intent grant key).run p.world)
  | .runOnce recoveryTest =>
    p.after .ran ((runOnce H p.engine recoveryTest).run p.world)

abbrev EngineEntry :=
  Machine.Entry EngineCall (Except EngineError EngineReply) Process

def engineRun (H : Host) (describe : PyErr → PyStr) (calls : List EngineCall) : Process :=
  Machine.exec (engineStep H) calls (Process.new describe)

def engineTrace (H : Host) (describe : PyErr → PyStr)
    (calls : List EngineCall) : List EngineEntry :=
  Machine.trace (engineStep H) calls (Process.new describe)

-- == the claim

/-- The call verified the job: it passed every gate, and the state of the
capability is the reduced one. -/
structure Verifies (H : Host) (e : EngineEntry) (row : JobRow)
    (spec : CapabilitySpec) (output : PyVal) : Prop where
  input : ∃ recoveryTest, e.input = .runOnce recoveryTest
  gates : Gates H e.before.engine e.before.world e.after.world row spec output
  name : spec.name = row.capability.str
  committed : Committed e.before.world e.after.world spec output

/-- Every verified job was verified by a call, its evidence still passes, and
a state changes only in a call that passed the gates of a job. -/
structure EvidenceGated (H : Host) (past : List EngineEntry) (p : Process) : Prop where
  verified : ∀ j row, p.world.disk.file.job? j = some row →
    row.state = .verified → ∃ e ∈ past, ∃ spec output, Verifies H e row spec output
        ∧ row.evidencePath = some (outputPath row) ∧ Filed H p.world row
  states : ∀ e ∈ past, ∀ k, e.after.world.disk.file.state? k ≠ e.before.world.disk.file.state? k →
    ∃ recoveryTest row spec output, e.input = .runOnce recoveryTest
      ∧ Gates H e.before.engine e.before.world e.after.world row spec output
      ∧ stateKey spec = some k

-- == steps

variable {H : Host}

variable {E : AutomatedEngine} {w : World} {e : EngineEntry}

theorem register_framed
    (hc : Calm E.me w.disk) (spec : CapabilitySpec) : Framed E.me none (register H E spec) w := by
  unfold register
  split
  · exact .raise hc _
  · exact ((outside_auditAppend _ _).framed hc none).bind fun _ w' h => .ret h.calm _

theorem engineSubmit_framed
    (hc : Calm E.me w.disk) (intent : Intent) (grant : Grant) (key : Option PyStr) :
    Framed E.me none (engineSubmit H E intent grant key) w := by
  unfold engineSubmit
  refine ((outside_permits grant intent.capability).framed hc none).bind fun permitted w hw => ?_
  cases permitted with
  | false =>
    exact ((outside_auditAppend _ _).framed hw.calm none).bind fun _ w' h => .raise h.calm _
  | true =>
    simp only [Bool.not_true, Bool.false_eq_true, if_false]
    cases E.capabilities intent.capability with
    | none =>
      exact ((outside_auditAppend _ _).framed hw.calm none).bind fun _ w' h => .raise h.calm _
    | some spec =>
      refine Framed.bind (p := Prog.tryCatch _ _) ?_ fun made w' h => ?_
      · refine Prog.Ends.tryCatch (submit_frame hw.calm _ _ _ _) fun e w' h => ?_
        cases e with
        | idempotencyConflict message =>
          exact (((outside_auditAppend _ _).framed h.calm none).bind
            fun _ w'' h' => .raise h'.calm _ : Framed E.me none _ w').imp
            (fun _ _ h' => h.trans h') fun _ _ h' => h.trans h'
        | py e => exact .raise h
        | raised name message => exact .raise h
        | escaped => exact .raise h
      · obtain ⟨id, created⟩ := made
        exact ((outside_auditAppend _ _).framed h.calm none).bind fun _ w'' h' => .ret h'.calm _

/-- The registry is keyed by the specifications' names. -/
def Registry (E : AutomatedEngine) : Prop :=
  ∀ name spec, E.capabilities name = some spec → spec.name = name

inductive Did (H : Host) (e : EngineEntry) : Prop
  | kept (hf : Frame 0 none e.before.world e.after.world)
  | ran (hin : ∃ recoveryTest, e.input = .runOnce recoveryTest)
      (hr : Ran H e.before.engine e.before.world e.after.world)

/-- An engine on connection 0, at rest, with its registry in order. -/
structure Ready (p : Process) : Prop where
  me : p.engine.me = 0
  calm : Calm 0 p.world.disk
  registry : Registry p.engine

variable {w' : World} {spec : CapabilitySpec} {past : List EngineEntry}

theorem Ran.calm (h : Ran H E w w') : Calm E.me w'.disk := by
  cases h with
  | kept hf => exact hf.calm
  | reached _ _ hf => exact hf.calm
  | succeeded _ hw => exact hw.calm

theorem registry_register {E' : AutomatedEngine} (h : (register H E spec).run w = (.ok E', w'))
    (hE : Registry E) : E'.me = E.me ∧ Registry E' := by
  unfold register at h
  split at h
  · cases h
  · have hends : (auditAppend H "capability_registered"
        [item "capability" (.str spec.name)] >>= fun _ =>
          pure { E with capabilities := fun name =>
            if name = spec.name then some spec else E.capabilities name }).Ends w
        (fun E' _ => E'.me = E.me ∧ Registry E') fun _ _ => True := by
      have hlogged : (auditAppend H "capability_registered"
          [item "capability" (.str spec.name)]).Ends w (fun _ _ => True)
          fun _ _ => True :=
        (outside_auditAppend _ _ w).imp (fun _ _ _ => trivial) fun _ _ _ => trivial
      refine hlogged.bind fun _ w₁ _ => ?_
      refine .ret ⟨rfl, fun name found hfound => ?_⟩
      change (if name = spec.name then some spec else E.capabilities name) = some found at hfound
      split at hfound
      · next hname =>
        cases hfound
        exact hname.symm
      · exact hE name found hfound
    obtain ⟨hrun⟩ := hends
    rw [h] at hrun
    exact hrun

theorem did_of_valid (hv : e.Valid (engineStep H))
    (hr : Ready e.before) : Did H e ∧ Ready e.after := by
  obtain ⟨call, ⟨w, E⟩, reply, p'⟩ := e
  obtain ⟨hme, hc, hreg⟩ := hr
  replace hme : E.me = 0 := hme
  replace hc : Calm E.me w.disk := hme ▸ hc
  have hstep : engineStep H call ⟨w, E⟩ = (reply, p') := hv
  cases call with
  | register spec =>
    have hf := (register_framed (H := H) hc spec).state
    simp only [engineStep] at hstep
    split at hstep
    · next E' w' hrun =>
      cases hstep
      rw [hrun, hme] at hf
      obtain ⟨hme', hreg'⟩ := registry_register hrun hreg
      exact ⟨.kept hf, hme'.trans hme, hf.calm, hreg'⟩
    · next err w' hrun =>
      cases hstep
      rw [hrun, hme] at hf
      exact ⟨.kept hf, hme, hf.calm, hreg⟩
  | submit intent grant key =>
    have hf := (engineSubmit_framed (H := H) hc intent grant key).state
    cases hstep
    rw [hme] at hf
    exact ⟨.kept hf, hme, hf.calm, hreg⟩
  | runOnce recoveryTest =>
    have hran := (runOnce_ends (H := H) hc recoveryTest).state
    cases hstep
    have hcalm := hran.calm
    rw [hme] at hcalm
    exact ⟨.ran ⟨recoveryTest, rfl⟩ hran, hme, hcalm, hreg⟩

-- == runs

theorem EvidenceGated.later {key : Option Text} (h : EvidenceGated H past e.before)
    (halike : Alike key e.before.world.disk.file e.after.world.disk.file)
    (hfiles : Files e.before.world e.after.world) (hs : ∀ k, e.after.world.disk.file.state? k
        ≠ e.before.world.disk.file.state? k →
      ∃ recoveryTest row spec output, e.input = .runOnce recoveryTest
        ∧ Gates H e.before.engine e.before.world e.after.world row spec output
        ∧ stateKey spec = some k) : EvidenceGated H (past ++ [e]) e.after := by
  refine ⟨fun j row hrow hv => ?_, fun e' he' => ?_⟩
  · obtain ⟨e', he', spec, output, hver, hpath, hfiled⟩ :=
      h.verified j row ((halike.verified j row hv).mp hrow) hv
    exact ⟨e', List.mem_append_left _ he', spec, output, hver, hpath, hfiled.later hfiles⟩
  · rcases List.mem_append.mp he' with he' | he'
    · exact h.states e' he'
    · rw [List.mem_singleton.mp he']
      exact hs

theorem EvidenceGated.won {row : JobRow} {output : PyVal}
    (h : EvidenceGated H past e.before) (hready : Ready e.before)
    (hin : ∃ recoveryTest, e.input = .runOnce recoveryTest)
    (hg : Gates H e.before.engine e.before.world e.after.world row spec output)
    (hw : Won e.before.engine.me e.before.world e.after.world row spec output) :
    EvidenceGated H (past ++ [e]) e.after := by
  obtain ⟨result, stamp, hjob⟩ := hw.job
  refine ⟨fun j r hr hv => ?_, fun e' he' k hk => ?_⟩
  · by_cases hj : j = row.id
    · subst hj
      rw [hjob] at hr
      cases hr
      have hname := hready.registry _ _ hg.permitted.registered
      exact ⟨e, List.mem_append_right _ (List.mem_singleton_self _), spec,
        output, ⟨hin, ⟨⟨hg.permitted.registered, hg.permitted.named,
          hg.permitted.unexpired⟩, hg.executed, hg.approved, hg.filed⟩, hname,
          hw.committed⟩, rfl, hg.filed⟩
    · obtain ⟨e', he', spec', output', hver, hpath, hfiled⟩ :=
        h.verified j r ((hw.others j r hj hv).mp hr) hv
      exact ⟨e', List.mem_append_left _ he', spec', output', hver, hpath, hfiled.later hw.files⟩
  · rcases List.mem_append.mp he' with he' | he'
    · exact h.states e' he' k hk
    · rw [List.mem_singleton.mp he'] at hk ⊢
      obtain ⟨recoveryTest, hin⟩ := hin
      refine ⟨recoveryTest, row, spec, output, hin, hg, ?_⟩
      by_contra hne
      exact hk (hw.states k hne)

theorem evidence_gated (H : Host) (describe : PyErr → PyStr) (calls : List EngineCall) :
    EvidenceGated H (engineTrace H describe calls) (engineRun H describe calls) := by
  have hrun := Machine.history_invariant (engineStep H) (C := fun _ => True)
    (I := fun past p => Ready p ∧ EvidenceGated H past p)
    (Process.new describe)
    ⟨⟨rfl, calm_mk_none _, fun _ _ h => by cases h⟩,
      fun _ _ h => (by cases h), fun _ h => (by cases h)⟩
    (fun past e hv _ hI => ?_) calls fun _ _ => trivial
  · exact hrun.2
  · obtain ⟨hready, hgated⟩ := hI
    obtain ⟨hdid, hready'⟩ := did_of_valid hv hready
    refine ⟨hready', ?_⟩
    cases hdid with
    | kept hf =>
      refine hgated.later hf.alike hf.files fun k hk => absurd ?_ hk
      exact hf.alike.states k (fun h => by cases h)
    | ran hin hr =>
      cases hr with
      | kept hf =>
        refine hgated.later hf.alike hf.files fun k hk => absurd ?_ hk
        exact hf.alike.states k (fun h => by cases h)
      | @reached row spec output hg _ hf =>
        refine hgated.later hf.alike hf.files fun k hk => ?_
        obtain ⟨recoveryTest, hin⟩ := hin
        refine ⟨recoveryTest, row, spec, output, hin, hg, ?_⟩
        by_contra hne
        exact hk (hf.alike.states k hne)
      | succeeded hg hw => exact hgated.won hready hin hg hw

def Sample.echo : CapabilitySpec where
  name := py "system.echo"
  executor _ payload := (.returned (.dict [item "echo" payload]),
    .finite ⟨0, [48, 46, 48], readFloat_zero⟩)
  verifier _ payload output :=
    .returned (.bool (output.eq (.dict [item "echo" payload])))
  reducer := some fun _ _ output =>
    .returned (.dict [item "last_output" output])
  timeoutSeconds := .finite ⟨30, [51, 48, 46, 48], by decide +kernel⟩
  maxAttempts := 3
  verifierIndependent := true
  verifierName := py "echo_verifier"

/-- The sample job succeeds. -/
example : (engineRun Sample.host (fun _ => []) [.register Sample.echo,
      .submit Sample.intent Sample.grant (some (py "key-1")),
      .runOnce false]).world.disk.file.jobs.rows.map JobRow.state
    = [.verified] := by
  decide +kernel

end Centinal26.Pipeline
