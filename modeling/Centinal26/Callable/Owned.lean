/-
The first request with a key owns it: what a later request with that key gets, over every sequence
of requests whose results go to different files of one directory.
-/
import Centinal26.Callable.Worker

namespace Centinal26.Callable.Worker

open Py Js

variable {L : Libraries} {env : Env}

-- == members

theorem prop_written (v : Json) (key : String) : prop (written v) key = (prop v key).map written := by
  cases v with
  | obj ms =>
    show getItem? (writtenMembers ms) (py key) = (getItem? ms (py key)).map written
    rw [writtenMembers_eq]
    induction ms with
    | nil => rfl
    | cons m rest ih =>
      rw [List.map_cons, getItem?_cons, getItem?_cons, ih]
      split <;> rfl
  | float x =>
    have hnumber : prop (number x) key = none := by
      unfold number
      split
      · split <;> rfl
      · rfl
    exact hnumber
  | _ => rfl

variable {body : List (String × Json)} {expiry : Option Json} {m : PyStr × Json}
  {ms : List (PyStr × Json)}

theorem prop_envelope {key : String} (h : key ≠ "envelope_hash") :
    prop (envelope L body) key = (prop (record body) key).map written := by
  rw [envelope, prop_written]
  congr 1
  generalize L.sha (canonical (record body)) = hash
  induction body with
  | nil => rw [List.nil_append, prop_record_cons, if_neg (Ne.symm h)]
  | cons m rest ih => rw [List.cons_append, prop_record_cons, prop_record_cons, ih]

/-- The members that no envelope has besides the common ones. -/
def Rest (rest : List (String × Json)) : Prop := "envelope_hash" ∉ rest.map Prod.fst

theorem verifyEnvelope_envelope (h : Rest body) : verifyEnvelope L (envelope L body) = true := by
  let members := body.map fun m => (py m.1, m.2)
  let hash := L.sha (canonical (record body))
  have hnew : ∀ m ∈ writtenMembers members, m.1 ≠ py "envelope_hash" := by
    intro m hm
    rw [writtenMembers_eq, List.map_map] at hm
    obtain ⟨n, hn, rfl⟩ := List.mem_map.mp hm
    exact fun heq => h (List.mem_map.mpr ⟨n, hn, py_inj.mp heq⟩)
  have henvelope : envelope L body
      = .obj (writtenMembers members ++ [(py "envelope_hash", .str hash)]) := by
    unfold envelope record
    rw [List.map_append, written, writtenMembers_eq, List.map_append, ← writtenMembers_eq]
    simp only [List.map_cons, List.map_nil, written]
    rfl
  have hprop : prop (.obj (writtenMembers members ++ [(py "envelope_hash", .str hash)]))
      "envelope_hash" = some (.str hash) := by
    show getItem? _ _ = _
    unfold getItem?
    rw [List.find?_append, List.find?_eq_none.mpr (by simpa using hnew)]
    simp
  have hcanonical : canonical (.obj (writtenMembers members)) = canonical (record body) :=
    canonical_written (record body)
  rw [henvelope, verifyEnvelope, is_iff, hprop, List.filter_append,
    List.filter_eq_self.mpr (by simpa using hnew)]
  simp [hcanonical, hash]

variable {key sha256 k raw name : PyStr} {ok : Bool} {extra : Extra} {d : Dir} {value : Json}
  {c : Call}

theorem rest_common {k : Option PyStr}
    {rest : List (String × Json)} (h : Rest rest) : Rest (common L env ok sha256 k ++ rest) := by
  unfold Rest at h ⊢
  rw [List.map_append, List.mem_append]
  rintro (hcommon | hrest)
  · exact absurd hcommon (by simp [common])
  · exact h hrest

-- == results

theorem prop_sha_envelope {k : Option PyStr} {rest : List (String × Json)} :
    prop (envelope L (common L env ok sha256 k ++ rest)) "request_sha256" = some (.str sha256) := by
  rw [prop_envelope (by decide)]
  simp [common, prop_record_cons, written]

theorem isResultOf_envelope {k : Option PyStr} {rest : List (String × Json)} (h : Rest rest) :
    isResultOf L key (envelope L (common L env ok sha256 k ++ rest)) = decide (k = some key) := by
  have hprotocol : prop (envelope L (common L env ok sha256 k ++ rest)) "protocol"
      = some (.str protocol) := by
    rw [prop_envelope (by decide)]
    simp [common, prop_record_cons, written]
  have hprovider : prop (envelope L (common L env ok sha256 k ++ rest)) "provider"
      = some (.str (py "github-actions")) := by
    rw [prop_envelope (by decide)]
    simp [common, prop_record_cons, written]
  have hkey : prop (envelope L (common L env ok sha256 k ++ rest)) "idempotency_key"
      = some (orNull k) := by
    rw [prop_envelope (by decide)]
    cases k <;> simp [common, prop_record_cons, written, orNull]
  rw [isResultOf, verifyEnvelope_envelope (rest_common h), hprotocol, hprovider, hkey]
  cases k <;> simp [is, orNull, Json.isStr]

theorem errorEnvelope_eq (raw : PyStr) (request : Option Json) (error : Failure)
    (h : Rest extra.existing) : ∃ rest, Rest rest
      ∧ errorEnvelope L env raw request error extra = envelope L
        (common L env false (errorIdentity L raw request).1 (errorIdentity L raw request).2
          ++ rest) := by
  refine ⟨("error", record [("type", .str (py error.name)), ("message", .str error.message)])
    :: (extra.existing ++ (optional "request_expiry" (error.requestExpiry.or extra.requestExpiry)
      ++ optional "provider_effect_policy" (errorPolicy env request error extra))), ?_, ?_⟩
  · have hoptional : ∀ name v, name ≠ "envelope_hash" → Rest (optional name v) := by
      intro name v hname
      cases v <;> simp [optional, Rest, Ne.symm hname]
    unfold Rest at h hoptional ⊢
    simp only [List.map_cons, List.map_append, List.mem_cons, List.mem_append]
    rintro (herror | hexisting | hexpiry | hpolicy)
    · exact absurd herror (by decide)
    · exact h hexisting
    · exact hoptional _ _ (by decide) hexpiry
    · exact hoptional _ _ (by decide) hpolicy
  · simp only [errorEnvelope, List.append_assoc, List.cons_append, List.nil_append]

-- == requests

/-- The request in a file, and what it is identified by. -/
def identified (L : Libraries) (raw : PyStr) : Option (Json × Identity) :=
  (L.parse raw).bind fun request =>
    (requestIdentity L request).toOption.map fun identity => (request, identity)

theorem identified_some {request : Json} {identity : Identity}
    (h : identified L raw = some (request, identity)) :
    L.parse raw = some request ∧ requestIdentity L request = .ok identity := by
  obtain ⟨request', hparse, hmap⟩ := Option.bind_eq_some_iff.mp h
  obtain ⟨identity', hidentity, heq⟩ := Option.map_eq_some_iff.mp hmap
  cases heq
  refine ⟨hparse, ?_⟩
  cases hr : requestIdentity L request with
  | error e =>
    rw [hr] at hidentity
    cases hidentity
  | ok i =>
    rw [hr] at hidentity
    cases hidentity
    rfl

theorem processRaw_identified {output : PyStr} {request : Json} {identity : Identity}
    (h : identified L raw = some (request, identity)) :
    processRaw L env d output raw = processIdentified L env d output raw request identity := by
  obtain ⟨hparse, hidentity⟩ := identified_some h
  rw [processRaw, hparse]
  dsimp only
  rw [hidentity]

/-- The output has the hash and the key of its request. -/
def Enveloped (L : Libraries) (env : Env) (sha256 : PyStr) (key : Option PyStr) (output : Json) :
    Prop :=
  ∃ ok rest, Rest rest ∧ output = envelope L (common L env ok sha256 key ++ rest)

theorem Enveloped.result {key : Option PyStr} {output : Json}
    (h : Enveloped L env sha256 key output) : isResultOf L k output = decide (key = some k) := by
  obtain ⟨ok, rest, hrest, rfl⟩ := h
  exact isResultOf_envelope hrest

theorem Enveloped.sha {key : Option PyStr} {output : Json} (h : Enveloped L env sha256 key output) :
    prop output "request_sha256" = some (.str sha256) := by
  obtain ⟨ok, rest, -, rfl⟩ := h
  exact prop_sha_envelope

theorem enveloped_error (raw : PyStr) (request : Option Json) (error : Failure) (extra : Extra)
    (h : Rest extra.existing) : Enveloped L env (errorIdentity L raw request).1
      (errorIdentity L raw request).2 (errorEnvelope L env raw request error extra) := by
  obtain ⟨rest, hrest, heq⟩ := errorEnvelope_eq raw request error h
  exact ⟨false, rest, hrest, heq⟩

theorem errorIdentity_ok {request : Json} {identity : Identity}
    (h : requestIdentity L request = .ok identity) :
    errorIdentity L raw (some request) = (identity.sha256, some identity.key) := by
  rw [errorIdentity, h]

theorem errorIdentity_error {request : Json} {e : Failure}
    (h : requestIdentity L request = .error e) :
    errorIdentity L raw (some request) = (L.sha raw, none) := by
  rw [errorIdentity, h]

theorem enveloped_failed {request : Json} {identity : Identity} {error : Failure}
    (h : requestIdentity L request = .ok identity) (hrest : Rest extra.existing) :
    Enveloped L env identity.sha256 (some identity.key)
      (errorEnvelope L env raw (some request) error extra) := by
  have herror : Enveloped L env _ _ _ := enveloped_error raw (some request) error extra hrest
  rwa [errorIdentity_ok h] at herror

theorem rest_success {policy response : Json} :
    Rest ([("provider_effect_policy", policy), ("response", response)]
      ++ optional "request_expiry" expiry) := by
  cases expiry <;> simp [Rest, optional]

theorem enveloped_processRequest {request : Json} {identity : Identity}
    {policy : Decision} {output : Json} {invoked : Bool}
    (h : processRequest L env request identity expiry policy = (.ok output, invoked)) :
    Enveloped L env identity.sha256 (some identity.key) output := by
  unfold processRequest at h
  split at h
  · split at h
    · cases h
    · obtain ⟨hmap, -⟩ := Prod.mk.inj h
      obtain ⟨response, -, rfl⟩ := of_map_ok hmap
      exact ⟨true, _, rest_success, by rw [successEnvelope, List.append_assoc]⟩
  · cases h

theorem enveloped_new {request : Json} {identity : Identity}
    (h : requestIdentity L request = .ok identity) :
    Enveloped L env identity.sha256 (some identity.key)
      (processNew L env raw request identity).output := by
  have hnone : Rest [] := by simp [Rest]
  unfold processNew
  dsimp only
  split
  · exact enveloped_failed h hnone
  · split
    · exact enveloped_failed h hnone
    · split
      · split
        · next hprocess => exact enveloped_processRequest hprocess
        · exact enveloped_failed h hnone
      · exact enveloped_failed h hnone

theorem isResultOf_key (h : isResultOf L k value = true) :
    prop value "idempotency_key" = some (.str k) := by
  unfold isResultOf at h
  rw [Bool.and_eq_true, is_iff] at h
  exact h.2

theorem priorResult_some {output : PyStr}
    (h : priorResult L d key output = some m) : m ∈ d ∧ isResultOf L key m.2 = true := by
  have hmem := mem_sortKeys.mp (List.mem_of_find?_eq_some h)
  have hresult := List.find?_some h
  rw [Bool.and_eq_true] at hresult
  exact ⟨(List.mem_filter.mp hmem).1, hresult.2⟩

theorem rest_existing : Rest (optional "existing_request_sha256" (prop value "request_sha256")
      ++ [("existing_result_file", .str name)]) := by
  cases prop value "request_sha256" <;> simp [Rest, optional]

theorem result_processIdentified {output : PyStr} {request : Json}
    {identity : Identity} (h : requestIdentity L request = .ok identity) :
    isResultOf L k (processIdentified L env d output raw request identity).output = true
      ↔ identity.key = k := by
  unfold processIdentified
  split
  · rw [(enveloped_new h).result, decide_eq_true_iff, Option.some_inj]
  · next name value hprior =>
    have hresult := (priorResult_some hprior).2
    split
    · constructor
      · intro hk
        have hkey := (isResultOf_key hresult).symm.trans (isResultOf_key hk)
        rwa [Option.some_inj, Json.str.injEq] at hkey
      · rintro rfl
        exact hresult
    · rw [(enveloped_failed h rest_existing).result, decide_eq_true_iff, Option.some_inj]

theorem result_processRaw {output : PyStr} :
    isResultOf L k (processRaw L env d output raw).output = true
      ↔ ∃ request identity, identified L raw = some (request, identity) ∧ identity.key = k := by
  have hnone : Rest [] := by simp [Rest]
  unfold processRaw identified
  cases hparse : L.parse raw with
  | none =>
    have herror : Enveloped L env _ _ _ :=
      enveloped_error raw none { name := "SyntaxError", message := L.syntaxError raw } {} hnone
    simp [herror.result, errorIdentity]
  | some request =>
    cases hidentity : requestIdentity L request with
    | error e =>
      have herror : Enveloped L env _ _ _ := enveloped_error raw (some request) e {} hnone
      rw [errorIdentity_error hidentity] at herror
      simp [herror.result, hidentity, Except.toOption]
    | ok identity =>
      simp [result_processIdentified hidentity, hidentity, Except.toOption]

-- == directories

/-- A call of the worker: a request file, the name of its result, and what it is given besides. -/
structure Call where
  input : PyStr
  output : PyStr
  env : Env

def after (L : Libraries) (d : Dir) (c : Call) : Dir :=
  ((processFile L c.env d c.input c.output).map Prod.snd).getD d

/-- The directory after calls, from an empty one. -/
def results (L : Libraries) (calls : List Call) : Dir := calls.foldl (after L) []

def requestOf (L : Libraries) (c : Call) : Option (Json × Identity) :=
  identified L (L.decode c.input)

theorem after_cases (L : Libraries) (d : Dir) (c : Call) :
    after L d c = d ∨ c.input.length ≤ maxRequestBytes ∧ getItem? d c.output = none
      ∧ after L d c = d ++ [(c.output, (processRaw L c.env d c.output (L.decode c.input)).output)] := by
  unfold after processFile
  split
  · exact .inl rfl
  · next hsize =>
    split
    · exact .inl rfl
    · next hnone =>
      exact .inr ⟨not_lt.mp hsize, Option.not_isSome_iff_eq_none.mp hnone, rfl⟩

theorem getItem?_after
    (h : getItem? d name = some value) : getItem? (after L d c) name = some value := by
  rcases after_cases L d c with heq | ⟨-, -, heq⟩
  · rw [heq, h]
  · unfold getItem? at h ⊢
    obtain ⟨m, hm, rfl⟩ := Option.map_eq_some_iff.mp h
    rw [heq, List.find?_append, hm]
    rfl

/-- No result of the directory is one for the key. -/
def Free (L : Libraries) (k : PyStr) (d : Dir) : Prop := ∀ m ∈ d, isResultOf L k m.2 = false

/-- The first result for the key is this one: the others are the same, or come after it. -/
structure Held (L : Libraries) (k name : PyStr) (value : Json) (d : Dir) : Prop where
  mem : (name, value) ∈ d
  result : isResultOf L k value = true
  others : ∀ m ∈ d, isResultOf L k m.2 = true → m.2 = value ∨ units name < units m.1

/-- The call is not of a request with this key. -/
def Other (L : Libraries) (k : PyStr) (c : Call) : Prop :=
  ∀ request identity, requestOf L c = some (request, identity) → identity.key ≠ k

theorem result_other (h : Other L k c) :
    isResultOf L k (processRaw L c.env d c.output (L.decode c.input)).output = false := by
  rw [← Bool.not_eq_true, result_processRaw]
  rintro ⟨request, identity, hrequest, hkey⟩
  exact h request identity hrequest hkey

theorem Free.after_call (h : Free L k d)
    (hother : c.input.length ≤ maxRequestBytes → Other L k c) : Free L k (after L d c) := by
  rcases after_cases L d c with heq | ⟨hsize, -, heq⟩
  · rwa [heq]
  · rw [heq]
    intro m hm
    rcases List.mem_append.mp hm with hm | hm
    · exact h m hm
    · rw [List.mem_singleton.mp hm]
      exact result_other (hother hsize)

theorem Held.after_other
    (h : Held L k name value d) (hother : Other L k c) : Held L k name value (after L d c) := by
  rcases after_cases L d c with heq | ⟨-, -, heq⟩
  · rwa [heq]
  · rw [heq]
    refine ⟨List.mem_append_left _ h.mem, h.result, fun m hm hresult => ?_⟩
    rcases List.mem_append.mp hm with hm | hm
    · exact h.others m hm hresult
    · rw [List.mem_singleton.mp hm, result_other hother] at hresult
      cases hresult

-- == searches

instance : Std.Total (@KeyLe Json) := ⟨fun m n => le_total (units m.1) (units n.1)⟩

instance : IsTrans (PyStr × Json) KeyLe := ⟨fun _ _ _ => le_trans⟩

theorem find?_le {p : PyStr × Json → Bool} (hsorted : ms.Pairwise KeyLe)
    {n : PyStr × Json} (hm : m ∈ ms) (hp : p m = true) (hfind : ms.find? p = some n) :
    KeyLe n m := by
  induction ms with
  | nil => cases hm
  | cons x rest ih =>
    obtain ⟨hx, hrest⟩ := List.pairwise_cons.mp hsorted
    rw [List.find?_cons] at hfind
    split at hfind
    · cases hfind
      rcases List.mem_cons.mp hm with rfl | hm
      · exact le_refl (units _)
      · exact hx m hm
    · next hnot =>
      rcases List.mem_cons.mp hm with rfl | hm
      · rw [hp] at hnot
        cases hnot
      · exact ih hrest hm hfind

theorem Held.priorResult {output : PyStr}
    (h : Held L k name value d) (hname : (py ".json").isSuffixOf name = true)
    (houtput : name ≠ output) : ∃ n, priorResult L d k output = some (n, value) := by
  have hmem : (name, value) ∈ sortKeys (d.filter fun m => (py ".json").isSuffixOf m.1) :=
    mem_sortKeys.mpr (List.mem_filter.mpr ⟨h.mem, hname⟩)
  have hgood : (!decide (name = output) && isResultOf L k value) = true := by
    simp [houtput, h.result]
  cases hfind : Worker.priorResult L d k output with
  | none =>
    have hnone := List.find?_eq_none.mp hfind _ hmem
    exact absurd hgood hnone
  | some m =>
    obtain ⟨hm, hresult⟩ := priorResult_some hfind
    have hle : KeyLe m (name, value) :=
      find?_le (List.pairwise_insertionSort KeyLe _) hmem hgood hfind
    rcases h.others m hm hresult with hvalue | hlt
    · exact ⟨m.1, by rw [← hvalue]⟩
    · exact absurd hlt (not_lt.mpr hle)

-- == owners

def IsConflict (output : Json) : Prop :=
  prop output "ok" = some (.bool false)
    ∧ read (prop output "error") "type" = some (.str (py "IdempotencyConflict"))

theorem isConflict_errorEnvelope {request : Option Json} :
    IsConflict (errorEnvelope L env raw request conflict extra) := by
  constructor
  · rw [errorEnvelope, prop_envelope (by decide)]
    simp [common, prop_record_cons, written]
  · have herror : prop (errorEnvelope L env raw request conflict extra) "error"
        = some (written (record [("type", .str (py "IdempotencyConflict")),
          ("message", .str conflict.message)])) := by
      rw [errorEnvelope, prop_envelope (by decide)]
      simp [common, prop_record_cons, conflict]
    rw [herror, Js.read, Option.bind_some, prop_written, prop_record_cons, if_pos rfl]
    rfl

/-- A request with the key of a result that is held: it gets that result if it has its hash, and
a conflict otherwise. -/
theorem Held.processRaw (env : Env) {output : PyStr} {request : Json} {identity : Identity}
    (h : Held L k name value d) (hname : (py ".json").isSuffixOf name = true)
    (houtput : name ≠ output) (hrequest : identified L raw = some (request, identity))
    (hkey : identity.key = k) :
    (processRaw L env d output raw).invoked = false
      ∧ (prop value "request_sha256" = some (.str identity.sha256) →
        (processRaw L env d output raw).output = value)
      ∧ (prop value "request_sha256" ≠ some (.str identity.sha256) →
        IsConflict (processRaw L env d output raw).output) := by
  obtain ⟨n, hprior⟩ := h.priorResult hname houtput
  rw [processRaw_identified hrequest, processIdentified, hkey, hprior]
  dsimp only
  by_cases hsame : is (prop value "request_sha256") identity.sha256 = true
  · rw [if_pos hsame]
    exact ⟨rfl, fun _ => rfl, fun hne => absurd (is_iff.mp hsame) hne⟩
  · rw [if_neg hsame]
    exact ⟨rfl, fun heq => absurd (is_iff.mpr heq) hsame, fun _ => isConflict_errorEnvelope⟩

theorem Free.priorResult {output : PyStr} (h : Free L k d) : priorResult L d k output = none := by
  cases hprior : Worker.priorResult L d k output with
  | none => rfl
  | some m =>
    obtain ⟨hm, hresult⟩ := priorResult_some hprior
    rw [h m hm] at hresult
    cases hresult

theorem processFile_new (hsize : c.input.length ≤ maxRequestBytes)
    (hnew : getItem? d c.output = none) : processFile L c.env d c.input c.output
      = some (processRaw L c.env d c.output (L.decode c.input),
        d ++ [(c.output, (processRaw L c.env d c.output (L.decode c.input)).output)]) := by
  rw [processFile, if_neg (not_lt.mpr hsize), hnew]
  rfl

/-- A conflict with a name before those of the results for its key is what is held then. -/
theorem Held.conflict_before {request : Json} {identity : Identity} (h : Held L k name value d)
    (hname : (py ".json").isSuffixOf name = true) (houtput : name ≠ c.output)
    (hrequest : requestOf L c = some (request, identity)) (hkey : identity.key = k)
    (hsize : c.input.length ≤ maxRequestBytes) (hnew : getItem? d c.output = none)
    (hsha : prop value "request_sha256" ≠ some (.str identity.sha256))
    (hbefore : ∀ m ∈ d, isResultOf L k m.2 = true → units c.output < units m.1) :
    prop (Worker.processRaw L c.env d c.output (L.decode c.input)).output "request_sha256"
        = some (.str identity.sha256)
      ∧ Held L k c.output (Worker.processRaw L c.env d c.output (L.decode c.input)).output
        (after L d c) := by
  obtain ⟨n, hprior⟩ := h.priorResult hname houtput
  constructor
  · rw [processRaw_identified hrequest, processIdentified, hkey, hprior]
    dsimp only
    rw [if_neg fun hsame => hsha (is_iff.mp hsame)]
    exact (enveloped_failed (identified_some hrequest).2 rest_existing).sha
  · rw [after, processFile_new hsize hnew]
    refine ⟨List.mem_append_right _ (List.mem_singleton.mpr rfl),
      result_processRaw.mpr ⟨request, identity, hrequest, hkey⟩, fun m hm hresult => ?_⟩
    rcases List.mem_append.mp hm with hm | hm
    · exact .inr (hbefore m hm hresult)
    · exact .inl (congrArg Prod.snd (List.mem_singleton.mp hm))

theorem Free.held {request : Json} {identity : Identity}
    (h : Free L k d) (hrequest : requestOf L c = some (request, identity))
    (hkey : identity.key = k) (hsize : c.input.length ≤ maxRequestBytes)
    (hnew : getItem? d c.output = none) :
    prop (processRaw L c.env d c.output (L.decode c.input)).output "request_sha256"
        = some (.str identity.sha256)
      ∧ Held L k c.output (processRaw L c.env d c.output (L.decode c.input)).output
        (after L d c) := by
  have hafter : after L d c
      = d ++ [(c.output, (processRaw L c.env d c.output (L.decode c.input)).output)] := by
    rw [after, processFile_new hsize hnew]
    rfl
  have hresult : isResultOf L k (processRaw L c.env d c.output (L.decode c.input)).output = true :=
    result_processRaw.mpr ⟨request, identity, hrequest, hkey⟩
  constructor
  · rw [processRaw_identified hrequest, processIdentified, hkey, h.priorResult]
    exact (enveloped_new (identified_some hrequest).2).sha
  · rw [hafter]
    refine ⟨List.mem_append_right _ (List.mem_singleton.mpr rfl), hresult, fun m hm hm' => ?_⟩
    rcases List.mem_append.mp hm with hm | hm
    · rw [h m hm] at hm'
      cases hm'
    · rw [List.mem_singleton.mp hm]
      exact .inl rfl

theorem Held.after_call (h : Held L k name value d) (hname : (py ".json").isSuffixOf name = true)
    (hlater : ∀ request identity, requestOf L c = some (request, identity) →
      c.input.length ≤ maxRequestBytes → identity.key = k →
      prop value "request_sha256" ≠ some (.str identity.sha256) → units name < units c.output) :
    Held L k name value (after L d c) := by
  by_cases hother : Other L k c
  · exact h.after_other hother
  · unfold Other at hother
    push Not at hother
    obtain ⟨request, identity, hrequest, hkey⟩ := hother
    rcases after_cases L d c with heq | ⟨hsize, hnew, heq⟩
    · rwa [heq]
    · have houtput : name ≠ c.output := by
        intro hsame
        have hmem : getItem? d c.output ≠ none := by
          rw [← hsame]
          unfold getItem?
          rw [ne_eq, Option.map_eq_none_iff, List.find?_eq_none]
          exact fun hall => hall _ h.mem (by simp)
        exact hmem hnew
      obtain ⟨-, hreuse, -⟩ := h.processRaw c.env hname houtput hrequest hkey
      rw [heq]
      refine ⟨List.mem_append_left _ h.mem, h.result, fun m hm hresult => ?_⟩
      rcases List.mem_append.mp hm with hm | hm
      · exact h.others m hm hresult
      · rw [List.mem_singleton.mp hm]
        by_cases hsha : prop value "request_sha256" = some (.str identity.sha256)
        · exact .inl (hreuse hsha)
        · exact .inr (hlater request identity hrequest hsize hkey hsha)

-- == runs

theorem results_append (before rest : List Call) :
    results L (before ++ rest) = rest.foldl (after L) (results L before) := by
  rw [results, List.foldl_append, ← results]

theorem foldl_after {I : Dir → Prop} {calls : List Call} (hd : I d)
    (h : ∀ c ∈ calls, ∀ d, I d → I (after L d c)) : I (calls.foldl (after L) d) := by
  induction calls generalizing d with
  | nil => exact hd
  | cons c rest ih =>
    exact ih (h c List.mem_cons_self d hd) fun c' hc' => h c' (List.mem_cons_of_mem c hc')

theorem getItem?_results {calls : List Call} (h : name ∉ calls.map Call.output) :
    getItem? (results L calls) name = none := by
  refine foldl_after (I := fun d => getItem? d name = none) rfl fun c hc d hd => ?_
  rcases after_cases L d c with heq | ⟨-, -, heq⟩
  · rwa [heq]
  · have hne : c.output ≠ name := fun hsame => h (List.mem_map.mpr ⟨c, hc, hsame⟩)
    unfold getItem? at hd ⊢
    rw [Option.map_eq_none_iff] at hd ⊢
    rw [heq, List.find?_append, hd]
    simp [hne]

/-- A request that is the first one with its key, and a later one with that key. -/
structure Later (L : Libraries) (calls : List Call) where
  before : List Call
  first : Call
  between : List Call
  again : Call
  rest : List Call
  split : calls = before ++ first :: (between ++ again :: rest)
  request : Json
  identity : Identity
  isRequest : requestOf L first = some (request, identity)
  isProcessed : first.input.length ≤ maxRequestBytes
  isFirst : ∀ c ∈ before, c.input.length ≤ maxRequestBytes → Other L identity.key c
  request' : Json
  identity' : Identity
  isRequest' : requestOf L again = some (request', identity')
  isProcessed' : again.input.length ≤ maxRequestBytes
  sameKey : identity'.key = identity.key

/-- What a call after others comes to, with the directory then. -/
def outcome (L : Libraries) (calls : List Call) (c : Call) : Option (Outcome × Dir) :=
  processFile L c.env (results L calls) c.input c.output

/-- The later request gets the result of the first if it is equal to it, and a conflict otherwise,
and asks the fabric for nothing. -/
def OwnedByFirst (L : Libraries) (calls : List Call) : Prop :=
  ∀ p : Later L calls, ∃ first later d d', outcome L p.before p.first = some (first, d)
    ∧ outcome L (p.before ++ p.first :: p.between) p.again = some (later, d')
    ∧ later.invoked = false
    ∧ (SameValue p.request' p.request → later.output = first.output)
    ∧ (¬ SameValue p.request' p.request → IsConflict later.output)

/-- The result of the first request is one the search sees and finds first, and what is written of
the two requests is what they are. -/
def Orderly (L : Libraries) (calls : List Call) : Prop :=
  ∀ p : Later L calls, (py ".json").isSuffixOf p.first.output = true
    ∧ p.request.isFinite = true ∧ p.request'.isFinite = true
    ∧ (¬ SameValue p.request' p.request → units p.first.output < units p.again.output)

/-- A result that is there stays as it is. -/
def Unmodified (L : Libraries) (calls : List Call) : Prop :=
  ∀ before rest, calls = before ++ rest → ∀ name value,
    getItem? (results L before) name = some value → getItem? (results L calls) name = some value

theorem unmodified (L : Libraries) (calls : List Call) : Unmodified L calls := by
  rintro before rest rfl name value h
  rw [results_append]
  exact foldl_after (I := fun d => getItem? d name = some value) h fun _ _ _ => getItem?_after

theorem requestIdentity_sha {request : Json} {identity : Identity}
    (h : requestIdentity L request = .ok identity) :
    identity.sha256 = L.sha (canonical request) := by
  unfold requestIdentity at h
  split at h
  · split at h
    · cases h
    · split at h
      · cases h
      · cases h
        rfl
  · cases h

theorem requestIdentity_of_key (h : keyOf (.obj ms) (L.sha (canonical (.obj ms))) = some key)
    (hsize : bytes key ≤ maxIdempotencyKeyBytes) :
    requestIdentity L (.obj ms) = .ok ⟨L.sha (canonical (.obj ms)), key⟩ := by
  rw [requestIdentity, h]
  exact if_neg (not_lt.mpr hsize)

theorem sha_eq_iff (hL : CollisionFree L) {raw' : PyStr} {request request' : Json}
    {identity identity' : Identity} (h : identified L raw = some (request, identity))
    (h' : identified L raw' = some (request', identity')) (hfinite : request.isFinite = true)
    (hfinite' : request'.isFinite = true) :
    identity.sha256 = identity'.sha256 ↔ SameValue request' request := by
  rw [requestIdentity_sha (identified_some h).2, requestIdentity_sha (identified_some h').2,
    ← canonical_eq_iff hfinite' hfinite]
  exact ⟨fun heq => (hL _ _ heq).symm, fun heq => by rw [heq]⟩

theorem output_new {calls before rest : List Call}
    (hnames : (calls.map Call.output).Nodup) (hsplit : calls = before ++ c :: rest) :
    c.output ∉ before.map Call.output := by
  rw [hsplit, List.map_append, List.map_cons] at hnames
  have hdisjoint := (List.nodup_append.mp hnames).2.2
  exact fun hmem => hdisjoint _ hmem _ List.mem_cons_self rfl

theorem Later.held (hL : CollisionFree L) {calls : List Call}
    (hnames : (calls.map Call.output).Nodup) (h : Orderly L calls) (p : Later L calls) :
    ∃ first d, outcome L p.before p.first = some (first, d)
      ∧ prop first.output "request_sha256" = some (.str p.identity.sha256)
      ∧ Held L p.identity.key p.first.output first.output
        (results L (p.before ++ p.first :: p.between)) := by
  have hfree : Free L p.identity.key (results L p.before) :=
    foldl_after (I := Free L p.identity.key) nofun fun c hc d hd => hd.after_call (p.isFirst c hc)
  have hnew := getItem?_results (L := L) (output_new hnames p.split)
  obtain ⟨hsha, hheld⟩ := hfree.held p.isRequest rfl p.isProcessed hnew
  refine ⟨_, _, processFile_new p.isProcessed hnew, hsha, ?_⟩
  rw [results_append, List.foldl_cons]
  refine foldl_after (I := Held L p.identity.key p.first.output _) hheld fun c hc d hd => ?_
  refine hd.after_call (h p).1 fun request' identity' hrequest' hsize' hkey' hne => ?_
  obtain ⟨between, rest, hbetween⟩ := List.append_of_mem hc
  let q : Later L calls := { p with
    between := between
    again := c
    rest := rest ++ p.again :: p.rest
    split := p.split.trans (by rw [hbetween, List.append_assoc, List.cons_append])
    request' := request'
    identity' := identity'
    isRequest' := hrequest'
    isProcessed' := hsize'
    sameKey := hkey' }
  obtain ⟨-, hfinite, hfinite', hlater⟩ := h q
  exact hlater fun hsame =>
    hne (by rw [hsha, (sha_eq_iff hL p.isRequest hrequest' hfinite hfinite').mpr hsame])

/-- Over every sequence of calls that is orderly, the first request with a key owns it. -/
theorem owned_by_first (L : Libraries) (hL : CollisionFree L) (calls : List Call)
    (hnames : (calls.map Call.output).Nodup) (h : Orderly L calls) :
    OwnedByFirst L calls ∧ Unmodified L calls := by
  refine ⟨fun p => ?_, unmodified L calls⟩
  obtain ⟨first, d, hfirst, hsha, hheld⟩ := p.held hL hnames h
  obtain ⟨hname, hfinite, hfinite', -⟩ := h p
  have hsplit : calls = (p.before ++ p.first :: p.between) ++ p.again :: p.rest := by
    rw [List.append_assoc, List.cons_append]
    exact p.split
  have hnew := output_new hnames hsplit
  have hne : p.first.output ≠ p.again.output := fun heq => hnew (by simp [heq])
  obtain ⟨hinvoked, hreuse, hconflict⟩ := hheld.processRaw p.again.env hname hne
    p.isRequest' p.sameKey
  have hiff := sha_eq_iff hL p.isRequest p.isRequest' hfinite hfinite'
  refine ⟨first, _, d, _, hfirst, processFile_new p.isProcessed' (getItem?_results hnew), hinvoked,
    fun hsame => hreuse ?_, fun hdiffer => hconflict fun heq => hdiffer ?_⟩
  · rw [hsha, hiff.mpr hsame]
  · rw [hsha, Option.some_inj, Json.str.injEq] at heq
    exact hiff.mp heq

-- == an example

namespace Sample

/-- A request with a key, and another with the same key. -/
def request : Json := record [("idempotency_key", .str (py "k"))]

def other : Json := record [("idempotency_key", .str (py "k")), ("x", .int 1)]

/-- The libraries, where a file is the text of a value. -/
def libraries : Libraries where
  sha s := s
  digest s := s
  decode s := s
  parse s := if s = canonical request then some request
    else if s = canonical other then some other else none
  syntaxError _ := []
  dateParse _ := none

theorem collisionFree : CollisionFree libraries := fun _ _ h => h

def sampleEnv : Env where
  runId := none
  sha := none
  ref := none
  core := []
  worker := []
  workflow := []
  canonicalGitSha := []
  sourceIdentity := []
  adapterSpec := []
  now := 0
  nowText := []
  respond _ := .ok .null

def call (value : Json) (output : String) : Call := ⟨canonical value, py output, sampleEnv⟩

/-- A request, another one with its key, and the request again, with the names in order. -/
def calls : List Call := [call request "a.json", call other "b.json", call request "c.json"]

theorem finite_request {c : Call} {value : Json} {identity : Identity}
    (h : requestOf libraries c = some (value, identity)) : value.isFinite = true := by
  have hparse := (identified_some h).1
  simp only [libraries] at hparse
  split at hparse
  · cases hparse
    rfl
  · split at hparse
    · cases hparse
      rfl
    · cases hparse

theorem orderly : Orderly libraries calls := by
  intro p
  have hfirst : p.first ∈ calls := (congrArg (fun cs => p.first ∈ cs) p.split).mpr (by simp)
  have hnames : ∀ c ∈ calls, (py ".json").isSuffixOf c.output = true := by decide +kernel
  have hsorted : calls.Pairwise fun c c' => units c.output < units c'.output := by
    decide +kernel
  refine ⟨hnames _ hfirst, finite_request p.isRequest, finite_request p.isRequest', fun _ => ?_⟩
  have hsplit := (congrArg (List.Pairwise _) p.split).mp hsorted
  exact (List.pairwise_cons.mp (List.pairwise_append.mp hsplit).2.1).1 _ (by simp)

theorem requestOf_call {value : Json} (output : String)
    (hparse : libraries.parse (canonical value) = some value)
    (hidentity : requestIdentity libraries value = .ok ⟨canonical value, py "k"⟩) :
    requestOf libraries (call value output) = some (value, ⟨canonical value, py "k"⟩) := by
  have hdecode : libraries.decode (call value output).input = canonical value := rfl
  rw [requestOf, hdecode, identified, hparse, Option.bind_some, hidentity]
  rfl

theorem requestOf_request (output : String) : requestOf libraries (call request output)
    = some (request, ⟨canonical request, py "k"⟩) :=
  requestOf_call output (by simp [libraries])
    (requestIdentity_of_key (by decide +kernel) (by decide +kernel))

theorem other_ne : canonical other ≠ canonical request := by decide +kernel

theorem requestOf_other (output : String) : requestOf libraries (call other output)
    = some (other, ⟨canonical other, py "k"⟩) :=
  requestOf_call output (by simp [libraries, other_ne])
    (requestIdentity_of_key (by decide +kernel) (by decide +kernel))

/-- The same requests, where the conflict has a name before that of the first result. -/
def misnamed : List Call := [call request "b.json", call other "a.json", call request "c.json"]

/-- The first request of these, and the last. -/
def replay : Later libraries misnamed where
  before := []
  first := call request "b.json"
  between := [call other "a.json"]
  again := call request "c.json"
  rest := []
  split := rfl
  request := request
  identity := ⟨canonical request, py "k"⟩
  isRequest := requestOf_request _
  isProcessed := by decide +kernel
  isFirst _ h := by cases h
  request' := request
  identity' := ⟨canonical request, py "k"⟩
  isRequest' := requestOf_request _
  isProcessed' := by decide +kernel
  sameKey := rfl

def isConflict (r : Option (Outcome × Dir)) : Bool :=
  r.any fun m => is (Js.read (prop m.1.output "error") "type") (py "IdempotencyConflict")

theorem first_kept : isConflict (outcome libraries [] (call request "b.json")) = false := by
  decide +kernel

theorem later_conflict : isConflict (outcome libraries
    [call request "b.json", call other "a.json"] (call request "c.json")) = true := by
  have hfree : Free libraries (py "k") [] := fun _ h => nomatch h
  obtain ⟨hsha, hheld⟩ := hfree.held (requestOf_request "b.json") rfl (by decide +kernel) rfl
  have hbefore : units (py "a.json") < units (py "b.json") := by decide +kernel
  obtain ⟨hsha', hheld'⟩ := hheld.conflict_before (by decide +kernel) (by decide +kernel)
    (requestOf_other "a.json") rfl (by decide +kernel) (by decide +kernel)
    (by simpa [hsha] using other_ne.symm) fun m hm _ => (List.mem_singleton.mp hm) ▸ hbefore
  have hnew : getItem? (results libraries [call request "b.json", call other "a.json"])
      (call request "c.json").output = none := getItem?_results (by decide +kernel)
  obtain ⟨-, -, hconflict⟩ := hheld'.processRaw sampleEnv (by decide +kernel)
    (show _ ≠ py "c.json" by decide +kernel) (requestOf_request "c.json") rfl
  have hanswer := (hconflict (by simpa [hsha'] using other_ne)).2
  rw [outcome, processFile_new (by decide +kernel) hnew, isConflict, Option.any_some, is_iff]
  exact hanswer

theorem results : isConflict (outcome libraries [] (call request "b.json")) = false
    ∧ isConflict (outcome libraries
      [call request "b.json", call other "a.json"] (call request "c.json")) = true :=
  ⟨first_kept, later_conflict⟩

end Sample

theorem owned_by_first_sample : OwnedByFirst Sample.libraries Sample.calls
    ∧ Unmodified Sample.libraries Sample.calls :=
  owned_by_first Sample.libraries Sample.collisionFree Sample.calls (by decide +kernel)
    Sample.orderly

/-- A request is answered with a conflict, because another one with its key has a result whose
name is before that of its own. -/
theorem not_owned : CollisionFree Sample.libraries ∧ (Sample.misnamed.map Call.output).Nodup
    ∧ ¬ OwnedByFirst Sample.libraries Sample.misnamed := by
  refine ⟨Sample.collisionFree, by decide +kernel, fun howned => ?_⟩
  obtain ⟨first, later, d, d', hfirst, hlater, -, hsame, -⟩ := howned Sample.replay
  have hnone : Sample.isConflict (some (first, d)) = false :=
    (congrArg Sample.isConflict hfirst).symm.trans Sample.results.1
  have hconflict : Sample.isConflict (some (later, d')) = true :=
    (congrArg Sample.isConflict hlater).symm.trans Sample.results.2
  have hboth : Sample.isConflict (some (later, d')) = Sample.isConflict (some (first, d)) := by
    simp only [Sample.isConflict, Option.any_some, hsame rfl]
  rw [hconflict, hnone] at hboth
  cases hboth

end Centinal26.Callable.Worker
