/-
Whether what was written verifies: the records of the audit log, and the files of evidence.
-/
import Centinal26.Pipeline.Engine
import Centinal26.Py.Reread

namespace Centinal26.Core

open Py

namespace AuditLog

-- == the check

variable (H : Host)

/-- One line of `verify`, after a hash: the hash of the record, or nothing, if the record does not
verify. -/
def verifyLine (previous : PyVal) (line : Option Json) : Except PyErr (Option PyVal) :=
  match line.map fun d => loads d.joined with
  | none => .error (.valueError "Expecting value")
  | some (.dict items) =>
    match getItem? items (.str (py "hash")) with
    | none => .error (.keyError (py "hash"))
    | some found =>
      let record := items.filter fun m => !decide (m.1 = .str (py "hash"))
      match getItem? record (.str (py "previous_hash")) with
      | none => .error (.keyError (py "previous_hash"))
      | some linked =>
        if linked.eq previous = false then .ok none
        else do
          let canonical := (← dumps (.dict record)).text compact
          let hash := H.sha256 (← encode canonical)
          if hash.val.eq found = false then .ok none else .ok (some found)
  | some _ => .error .typeError

/-- The lines of `verify`, after a hash. -/
def verifyFrom : PyVal → List (Option Json) → Except PyErr Bool
  | _, [] => .ok true
  | previous, line :: rest => do
    match ← verifyLine H previous line with
    | none => .ok false
    | some found => verifyFrom found rest

def verify (log : AuditLog) : Except PyErr Bool :=
  if log.utf8 then verifyFrom H genesis.val log.lines else .error .unicodeDecodeError

/-- The appends of some records, each with its event, its payload and a reading of the clock. -/
def appends (log : AuditLog) : List (String × PyVal × Instant) → Except PyErr AuditLog
  | [] => .ok log
  | (event, payload, now) :: rest => do appends (← log.append H event payload now) rest

variable {H}

/-- Lines that verify one after the other, from one hash to another. -/
def Linked (H : Host) : PyVal → List (Option Json) → PyVal → Prop
  | p, [], q => p = q
  | p, line :: rest, q => ∃ found, verifyLine H p line = .ok (some found) ∧ Linked H found rest q

variable {p q payload : PyVal} {lines : List (Option Json)} {log log' : AuditLog} {event : String}
  {now : Instant}

theorem Linked.verifies (h : Linked H p lines q) : verifyFrom H p lines = .ok true := by
  induction lines generalizing p with
  | nil => rfl
  | cons line rest ih =>
    obtain ⟨found, hline, hrest⟩ := h
    rw [verifyFrom, hline]
    exact ih hrest

theorem Linked.concat {r : PyVal} {line : Option Json}
    (h : Linked H p lines q) (hline : verifyLine H q line = .ok (some r)) :
    Linked H p (lines ++ [line]) r := by
  induction lines generalizing p with
  | nil =>
    cases h
    exact ⟨r, hline, rfl⟩
  | cons first rest ih =>
    obtain ⟨found, hfirst, hrest⟩ := h
    exact ⟨found, hfirst, ih hrest⟩

theorem lineHash_of_mem {ms : List (PyStr × Json)} (h : (ms.map Prod.fst).Nodup) {v : Json}
    (hv : (py "hash", v) ∈ ms) : lineHash (some (.obj ms)) = .ok (loads v) := by
  have hnodup : (ms.reverse.map Prod.fst).Nodup := by
    rw [List.map_reverse]
    exact List.nodup_reverse.mpr h
  have hget := (Dict.mem_items (d := ⟨ms.reverse, hnodup⟩)).mp (List.mem_reverse.mpr hv)
  obtain ⟨m, hm, rfl⟩ := Option.map_eq_some_iff.mp hget
  rw [lineHash]
  simp only [hm]

theorem append_verifies {previous : Text} {d : Json} (hprev : log.previous = .ok previous.val)
    (hd : dumps payload = .ok d) (hnormal : d.joined.isNormal = true) :
    ∃ (sha : Text) (line : Json), log.append H event payload now = .ok (log.write line)
      ∧ lineHash (some line) = .ok sha.val
      ∧ verifyLine H previous.val (some line) = .ok (some sha.val) := by
  let fields (payload : Json) : List (PyStr × Json) :=
    [(py "timestamp", .str (H.isoformat now).str), (py "event", .str (py event)),
      (py "payload", payload), (py "previous_hash", .str previous.str)]
  let plain : Json := .obj (sortByName (fields d))
  let text : Text := ⟨plain.text compact, (ascii_text isAscii_compact plain).encodable⟩
  let sha := H.sha256 text
  let members (payload : Json) := fields payload ++ [(py "hash", .str sha.str)]
  have hplain : dumps (.dict (record H now event payload previous.val)) = .ok plain := by
    have hitems : record H now event payload previous.val
        = strItems [(py "timestamp", (H.isoformat now).val), (py "event", .str (py event)),
          (py "payload", payload), (py "previous_hash", previous.val)] := rfl
    rw [hitems, dumps_strItems]
    simp only [dumpsFields, Text.val, dumps, hd, bind_ok_eq]
    rfl
  have hline : dumps (.dict (record H now event payload previous.val
      ++ [item "hash" sha.val])) = .ok (.obj (sortByName (members d))) := by
    have hitems : record H now event payload previous.val ++ [item "hash" sha.val]
        = strItems [(py "timestamp", (H.isoformat now).val), (py "event", .str (py event)),
          (py "payload", payload), (py "previous_hash", previous.val),
          (py "hash", sha.val)] := rfl
    rw [hitems, dumps_strItems]
    simp only [dumpsFields, Text.val, dumps, hd, bind_ok_eq]
    rfl
  have hnodup : ∀ payload, ((members payload).map Prod.fst).Nodup := fun payload => by
    show [py "timestamp", py "event", py "payload", py "previous_hash", py "hash"].Nodup
    decide
  have hencodable : ∀ payload, ∀ m ∈ members payload, Encodable m.1 := by
    intro payload m hm
    simp only [members, fields, List.cons_append, List.nil_append, List.mem_cons,
      List.not_mem_nil, or_false] at hm
    rcases hm with rfl | rfl | rfl | rfl | rfl <;> exact encodable_py _
  have hjoin : (members d).map (fun m => (m.1, m.2.joined)) = members d.joined := by
    simp only [members, fields, List.cons_append, List.nil_append, List.map_cons, List.map_nil,
      Json.joined, joined_encodable (H.isoformat now).encodable,
      joined_encodable (encodable_py event), joined_encodable previous.encodable,
      joined_encodable sha.encodable]
  have hread : (Json.obj (sortByName (members d))).joined
      = .obj (sortByName (members d.joined)) := by
    rw [joined_obj (hencodable d), hjoin]
  have hkept : (members d.joined).filter (fun m => !decide (m.1 = py "hash"))
      = fields d.joined := rfl
  -- the rest of the record is written with the text that was hashed
  have hfields : ((fields d.joined).map Prod.fst).Nodup := by
    show [py "timestamp", py "event", py "payload", py "previous_hash"].Nodup
    decide
  have hplainRead : plain.joined = .obj (sortByName (fields d.joined)) := by
    rw [joined_obj fun m hm => hencodable d m (List.mem_append_left _ hm)]
    have hmap := congrArg (fun ms => ms.take 4) hjoin
    exact congrArg (fun ms => Json.obj (sortByName ms)) hmap
  have hdumps : dumps (loads plain.joined) = .ok plain.joined := by
    refine dumps_loads _ ?_ ((isShort_joined plain).trans (isShort_dumps _ _ hplain))
    rw [hplainRead, isNormal_sorted hfields]
    simp only [fields, List.mem_cons, List.not_mem_nil, or_false, forall_eq_or_imp, forall_eq,
      Json.isNormal, hnormal, and_self]
  have htext : encode (plain.joined.text compact) = .ok text :=
    encode_eq_ok.mpr (text_joined compact rfl plain).symm
  refine ⟨sha, .obj (sortByName (members d)), ?_, ?_, ?_⟩
  · have hcompact : (⟨true, py ",", py ":"⟩ : Style) = compact := rfl
    have hencode : encode (plain.text compact) = .ok text := encode_str text
    unfold append
    simp only [hprev, hplain, hcompact, hencode, bind_ok_eq]
    rw [hline]
    rfl
  · exact lineHash_of_mem (nodup_sortByName (hnodup d))
      (mem_sortByName.mpr (List.mem_append_right _ (List.mem_singleton_self _)))
  · obtain ⟨items, hitems, hget, hrest⟩ := loads_filter (hnodup d.joined) (py "hash")
    obtain ⟨record, hrecord, hlinked, -⟩ := loads_filter hfields (py "hash")
    rw [hkept] at hrest
    have hpopped := PyVal.dict.inj (hrest.trans hrecord)
    have hfound := hget (py "hash") (.str sha.str)
      (List.mem_append_right _ (List.mem_singleton_self _))
    have hprevious := hlinked (py "previous_hash") (.str previous.str) (by
      simp only [fields, List.mem_cons, true_or, or_true])
    rw [hplainRead, hrecord] at hdumps
    have hsame : ∀ s, (PyVal.str s).eq (.str s) = true := fun s => PyVal.eq_str.mpr rfl
    rw [hplainRead] at htext
    unfold verifyLine
    rw [Option.map_some, hread, hitems]
    simp only [hfound, hpopped, hprevious, loads, Text.val, hsame, Bool.true_eq_false, if_false,
      hdumps, htext, bind_ok_eq]
    exact if_neg (by rw [hsame]; decide)

/-- Every line verifies, and the next one is linked to the last of them. -/
structure Verifies (H : Host) (log : AuditLog) : Prop where
  utf8 : log.utf8 = true
  terminated : log.terminated = true
  linked : ∃ last : Text, log.previous = .ok last.val ∧ Linked H genesis.val log.lines last.val

theorem verifies_empty : Verifies H empty :=
  ⟨rfl, rfl, genesis, rfl, rfl⟩

theorem Verifies.verify (h : Verifies H log) : log.verify H = .ok true := by
  obtain ⟨last, -, hlinked⟩ := h.linked
  rw [AuditLog.verify, if_pos h.utf8]
  exact hlinked.verifies

theorem Verifies.append (h : Verifies H log) (hreads : keepsOrder payload = true)
    (happend : log.append H event payload now = .ok log') : Verifies H log' := by
  obtain ⟨last, hprev, hlinked⟩ := h.linked
  cases hd : dumps payload with
  | error e =>
    rw [keepsOrder, hd] at hreads
    cases hreads
  | ok d =>
    obtain ⟨sha, line, hline, hhash, hverify⟩ :=
      append_verifies hprev hd ((keepsOrder_iff hd).mp hreads)
    have hlog := Except.ok.inj (happend.symm.trans hline)
    rw [write, if_pos h.terminated] at hlog
    subst hlog
    refine ⟨h.utf8, h.terminated, sha, ?_, hlinked.concat hverify⟩
    rw [previous, if_pos h.utf8, List.getLast?_concat]
    exact hhash

theorem Verifies.appends {records : List (String × PyVal × Instant)}
    (h : Verifies H log) (hreads : ∀ r ∈ records, keepsOrder r.2.1 = true)
    (happends : log.appends H records = .ok log') : Verifies H log' := by
  induction records generalizing log with
  | nil =>
    cases happends
    exact h
  | cons r rest ih =>
    obtain ⟨event, payload, now⟩ := r
    rw [AuditLog.appends] at happends
    obtain ⟨next, hnext, happends⟩ := of_bind_ok happends
    exact ih (h.append (hreads _ (List.mem_cons_self ..)) hnext)
      (fun r hr => hreads r (List.mem_cons_of_mem _ hr)) happends

end AuditLog

end Centinal26.Core

namespace Centinal26.Pipeline

open Py Core

-- == evidence

variable (H : Host)

/-- The names that `EvidenceStore.write` gives a value of its own. -/
def ownNames : List PyKey :=
  [.str (py "job_id"), .str (py "attempt"), .str (py "recorded_at")]

/-- What `EvidenceStore.write` hashes, of any payload. -/
def evidenceBody (jobId : PyStr) (attempt : Int) (payload : Dict PyKey PyVal)
    (recordedAt : Instant) : Dict PyKey PyVal :=
  ((payload.set (.str (py "job_id")) (.str jobId)).set (.str (py "attempt")) (.int attempt)).set
    (.str (py "recorded_at")) (H.isoformat recordedAt).val

/-- The document `EvidenceStore.write` puts under a path where there is nothing. -/
def writtenEvidence (jobId : PyStr) (attempt : Int) (payload : Dict PyKey PyVal)
    (recordedAt : Instant) : Except PyErr Json := do
  let body := evidenceBody H jobId attempt payload recordedAt
  let sha ← canonicalSha256 H (.dict body.items)
  dumps (.dict (body.set (.str (py "sha256")) sha.val).items)

/-- What is written of a body: its values as they are dumped, and the digest of the text. -/
structure Written (H : Host) (body : Dict PyKey PyVal) (doc : Json)
    (fields : List (PyStr × Json)) (sha : Text) : Prop where
  nodup : (fields.map Prod.fst).Nodup
  values : ∀ k d, (k, d) ∈ fields ↔ ∃ v, body.get? (.str k) = some v ∧ dumps v = .ok d
  names : ∀ k v, body.get? k = some v → ∃ s d, k = .str s ∧ (s, d) ∈ fields
  short : (Json.obj (sortByName fields)).isShort = true
  encodable : (Json.obj (sortByName fields)).isEncodable = true
  hashed : ∃ text : Text, text.str = (Json.obj (sortByName fields)).text .canonical
    ∧ sha = H.sha256 text
  doc_eq : doc = .obj (sortByName (setItem fields (py "sha256") (.str sha.str)))

variable {H} {jobId : PyStr} {attempt : Int} {payload body : Dict PyKey PyVal}
  {recordedAt : Instant} {doc : Json} {fields : List (PyStr × Json)} {sha : Text}

variable {α : Type} {k : PyStr} {v : PyVal} {ms : List (PyStr × α)}

theorem mem_strItems {v : α} : (.str k, v) ∈ strItems ms ↔ (k, v) ∈ ms := by
  refine ⟨fun h => ?_, fun h => List.mem_map.mpr ⟨(k, v), h, rfl⟩⟩
  obtain ⟨m, hm, heq⟩ := List.mem_map.mp h
  obtain ⟨hk, rfl⟩ := Prod.mk.inj heq
  obtain rfl := PyKey.str.inj hk
  exact hm

theorem nodup_of_strItems (h : ((strItems ms).map Prod.fst).Nodup) : (ms.map Prod.fst).Nodup := by
  have hmap : (strItems ms).map Prod.fst = (ms.map Prod.fst).map PyKey.str := by
    rw [strItems, List.map_map, List.map_map]
    rfl
  rw [hmap] at h
  exact List.Nodup.of_map _ h

theorem written_of_ok {s : PyStr} (hname : body.get? (.str s) = some v)
    (hsha : canonicalSha256 H (.dict body.items) = .ok sha)
    (hdoc : dumps (.dict (body.set (.str (py "sha256")) sha.val).items) = .ok doc) :
    ∃ fields, Written H body doc fields sha := by
  obtain ⟨text, htext, hhash⟩ := of_bind_ok hsha
  cases hhash
  obtain ⟨d, hd, hencode⟩ := of_bind_ok htext
  rw [encode_eq_ok] at hencode
  obtain ⟨items, hnodup⟩ := body
  obtain ⟨ms, rfl⟩ := strItems_of_dumps hd (List.mem_map.mpr ⟨_, Dict.mem_items.mpr hname, rfl⟩)
  have hshort := isShort_dumps _ d hd
  have hnames := nodup_of_strItems hnodup
  rw [dumps_strItems] at hd
  obtain ⟨fields, hfields, rfl⟩ := of_map_ok hd
  obtain ⟨hkeys, hvalues⟩ := dumpsFields_spec hfields
  refine ⟨fields, ?_, fun k d => ⟨fun hm => ?_, ?_⟩, fun k v hk => ?_, hshort, ?_,
    ⟨text, hencode, rfl⟩, ?_⟩
  · rw [hkeys]
    exact hnames
  · obtain ⟨v, hv, hdumps⟩ := mem_dumpsFields hfields hm
    exact ⟨v, Dict.mem_items.mp (mem_strItems.mpr hv), hdumps⟩
  · rintro ⟨v, hv, hdumps⟩
    obtain ⟨d', hd', hm⟩ := hvalues _ (mem_strItems.mp (Dict.mem_items.mpr hv))
    cases hd'.symm.trans hdumps
    exact hm
  · obtain ⟨m, hm, heq⟩ := List.mem_map.mp (Dict.mem_items.mpr hk)
    obtain ⟨hkey, -⟩ := Prod.mk.inj heq
    obtain ⟨d, -, hd⟩ := hvalues m hm
    exact ⟨m.1, d, hkey.symm, hd⟩
  · rw [← encodable_text, ← hencode]
    exact text.encodable
  · have hset : (Dict.set ⟨strItems ms, hnodup⟩ (.str (py "sha256")) (H.sha256 text).val).items
        = strItems (setItem ms (py "sha256") (H.sha256 text).val) := setItem_strItems ..
    rw [hset, dumps_strItems, dumpsFields_setItem hfields (w := .str (H.sha256 text).str)
      (by rw [Text.val, dumps])] at hdoc
    exact (Except.ok.inj hdoc).symm

/-- What is left when the digest is popped. -/
def unhashed (fields : List (PyStr × Json)) : Json :=
  .obj (sortByName (fields.filter fun m => !decide (m.1 = py "sha256")))

theorem mem_setItem_self {β : Type} [DecidableEq α] (d : List (α × β)) (k : α) (v : β) :
    (k, v) ∈ setItem d k v := by
  induction d with
  | nil => exact List.mem_singleton_self _
  | cons m rest ih =>
    unfold setItem
    split
    · exact List.mem_cons_self ..
    · exact List.mem_cons_of_mem _ ih

theorem Written.joined_eq (h : Written H body doc fields sha) : doc.joined = doc := by
  have hencodable := h.encodable
  rw [Json.isEncodable, allEncodableMembers_eq, List.all_eq_true] at hencodable
  apply joined_isEncodable
  rw [h.doc_eq, Json.isEncodable, allEncodableMembers_eq, List.all_eq_true]
  intro m hm
  rcases mem_setItem (mem_sortByName.mp hm) with rfl | hm
  · rw [Bool.and_eq_true, decide_eq_true_eq]
    exact ⟨encodable_py _, decide_eq_true sha.encodable⟩
  · exact hencodable m (mem_sortByName.mpr hm)

theorem Written.verifyDocument_eq (h : Written H body doc fields sha) : verifyDocument H doc
      = (canonicalSha256 H (loads (unhashed fields))).map fun found => sha.val.eq found.val := by
  have hnodup := nodup_setItem (py "sha256") (Json.str sha.str) h.nodup
  obtain ⟨items, hitems, hget, hrest⟩ := loads_filter hnodup (py "sha256")
  have hfound := hget (py "sha256") (.str sha.str) (mem_setItem_self ..)
  rw [filter_setItem] at hrest
  unfold getItem? at hfound
  rw [verifyDocument, h.doc_eq, hitems]
  simp only [hfound, hrest, Option.getD_some]
  rfl

theorem Written.verifies_iff (h : Written H body doc fields sha)
    (hH : Function.Injective H.sha256) : verifyDocument H doc = .ok true
      ↔ dumps (loads (unhashed fields)) = .ok (.obj (sortByName fields)) := by
  obtain ⟨text, htext, hsha⟩ := h.hashed
  rw [h.verifyDocument_eq]
  constructor
  · intro hverify
    obtain ⟨found, hfound, hverify⟩ := of_map_ok hverify
    obtain ⟨text', htext', hfound⟩ := of_bind_ok hfound
    cases hfound
    obtain ⟨q, hq, hencode⟩ := of_bind_ok htext'
    rw [encode_eq_ok] at hencode
    have hsame := PyVal.str.inj (PyVal.eq_str.mp hverify)
    rw [hsha] at hsame
    have htexts : text = text' := hH (Text.ext hsame)
    rw [hq, text_injective (hencode.symm.trans ((congrArg Text.str htexts.symm).trans htext))]
  · intro hdumps
    unfold canonicalSha256 canonicalText
    rw [hdumps, bind_ok_eq, encode_eq_ok.mpr htext, bind_ok_eq, ← hsha]
    exact congrArg Except.ok (PyVal.eq_str.mpr rfl)

theorem Written.dumps_iff (h : Written H body doc fields sha) :
    dumps (loads (unhashed fields)) = .ok (.obj (sortByName fields))
      ↔ py "sha256" ∉ fields.map Prod.fst ∧ ∀ m ∈ fields, m.2.isNormal = true := by
  constructor
  · intro hdumps
    have hnormal := isNormal_dumps_loads _ _ hdumps
    refine ⟨fun hname => ?_, (isNormal_sorted h.nodup).mp hnormal⟩
    have hnodup : ((fields.filter fun m => !decide (m.1 = py "sha256")).map Prod.fst).Nodup :=
      h.nodup.sublist (List.filter_sublist.map _)
    rw [unhashed, loads_obj (nodup_sortByName hnodup), dumps_strItems] at hdumps
    obtain ⟨left, hleft, heq⟩ := of_map_ok hdumps
    obtain ⟨m, hm, hname⟩ := List.mem_map.mp hname
    have hmem : m ∈ left := by
      rw [← mem_sortByName, Json.obj.inj heq]
      exact mem_sortByName.mpr hm
    obtain ⟨v, hv, -⟩ := mem_dumpsFields hleft hmem
    obtain ⟨n, hn, heq⟩ := List.mem_map.mp hv
    have hkept := (List.mem_filter.mp (mem_sortByName.mp hn)).2
    rw [(Prod.mk.inj heq).1, hname] at hkept
    simp at hkept
  · rintro ⟨hname, hnormal⟩
    have hall : (fields.filter fun m => !decide (m.1 = py "sha256")) = fields := by
      refine List.filter_eq_self.mpr fun m hm => ?_
      rw [Bool.not_eq_true', decide_eq_false_iff_not]
      exact fun heq => hname (heq ▸ List.mem_map_of_mem hm)
    rw [unhashed, hall]
    exact dumps_loads _ ((isNormal_sorted h.nodup).mpr hnormal) h.short

theorem Written.mem_names_iff (h : Written H body doc fields sha) :
    k ∈ fields.map Prod.fst ↔ body.contains (.str k) = true := by
  rw [Dict.contains, Option.isSome_iff_exists]
  constructor
  · intro hk
    obtain ⟨m, hm, rfl⟩ := List.mem_map.mp hk
    obtain ⟨v, hv, -⟩ := (h.values m.1 m.2).mp hm
    exact ⟨v, hv⟩
  · rintro ⟨v, hv⟩
    obtain ⟨s, d, hs, hm⟩ := h.names _ v hv
    cases hs
    exact List.mem_map_of_mem hm

theorem Written.normal_iff (h : Written H body doc fields sha) : (∀ m ∈ fields, m.2.isNormal = true)
      ↔ ∀ k v, body.get? k = some v → keepsOrder v = true := by
  have hencodable := h.encodable
  rw [Json.isEncodable, allEncodableMembers_eq, List.all_eq_true] at hencodable
  have hkeeps : ∀ m ∈ fields, ∀ v, dumps v = .ok m.2 →
      (keepsOrder v = true ↔ m.2.isNormal = true) := by
    intro m hm v hv
    have hm' := hencodable m (mem_sortByName.mpr hm)
    rw [Bool.and_eq_true] at hm'
    rw [keepsOrder_iff hv, joined_isEncodable m.2 hm'.2]
  constructor
  · intro hnormal k v hk
    obtain ⟨s, d, rfl, hm⟩ := h.names k v hk
    obtain ⟨v', hv', hd⟩ := (h.values s d).mp hm
    cases hv'.symm.trans hk
    exact (hkeeps _ hm v hd).mpr (hnormal _ hm)
  · intro hall m hm
    obtain ⟨v, hv, hd⟩ := (h.values m.1 m.2).mp hm
    exact (hkeeps m hm v hd).mp (hall _ v hv)

theorem get?_evidenceBody (k : PyKey) : (evidenceBody H jobId attempt payload recordedAt).get? k
      = if k = .str (py "recorded_at") then some (H.isoformat recordedAt).val
        else if k = .str (py "attempt") then some (.int attempt)
        else if k = .str (py "job_id") then some (.str jobId)
        else payload.get? k := by
  rw [evidenceBody, Dict.get?_set, Dict.get?_set, Dict.get?_set]

theorem get?_evidenceBody_of_not_own {k : PyKey} (h : k ∉ ownNames) :
    (evidenceBody H jobId attempt payload recordedAt).get? k = payload.get? k := by
  simp only [ownNames, List.mem_cons, List.not_mem_nil, or_false, not_or] at h
  rw [get?_evidenceBody, if_neg h.2.2, if_neg h.2.1, if_neg h.1]

theorem keepsOrder_own {k : PyKey} {d : Json} (hk : k ∈ ownNames)
    (h : (evidenceBody H jobId attempt payload recordedAt).get? k = some v)
    (hd : dumps v = .ok d) : keepsOrder v = true := by
  rw [keepsOrder_iff hd]
  rw [get?_evidenceBody] at h
  simp only [ownNames, List.mem_cons, List.not_mem_nil, or_false] at hk
  split at h
  · cases h
    cases hd
    rfl
  · split at h
    · cases h
      obtain ⟨_, -, hd⟩ := of_bind_ok hd
      cases hd
      rfl
    · split at h
      · cases h
        cases hd
        rfl
      · tauto

/-- A log whose payloads all keep the order of their names verifies after any number of appends,
and evidence verifies just if the values of its payload do and none of them is a digest. -/
theorem verifies_after_write (hH : Function.Injective H.sha256) :
    (∀ records log, (∀ r ∈ records, keepsOrder r.2.1 = true) →
      AuditLog.empty.appends H records = .ok log → log.verify H = .ok true)
    ∧ ∀ jobId attempt payload recordedAt doc,
      writtenEvidence H jobId attempt payload recordedAt = .ok doc →
        (verifyDocument H doc.joined = .ok true ↔ payload.contains (.str (py "sha256")) = false
            ∧ ∀ k v, payload.get? k = some v → k ∉ ownNames → keepsOrder v = true) := by
  refine ⟨fun records log hreads happends =>
    (AuditLog.verifies_empty.appends hreads happends).verify, ?_⟩
  intro jobId attempt payload recordedAt doc hwritten
  obtain ⟨sha, hsha, hdoc⟩ := of_bind_ok hwritten
  obtain ⟨fields, h⟩ := written_of_ok
    ((get?_evidenceBody (.str (py "recorded_at"))).trans (if_pos rfl)) hsha hdoc
  rw [h.joined_eq, h.verifies_iff hH, h.dumps_iff]
  refine and_congr ?_ ?_
  · rw [h.mem_names_iff, Dict.contains, Dict.contains,
      get?_evidenceBody_of_not_own (by decide), Bool.not_eq_true]
  · rw [h.normal_iff]
    constructor
    · intro hall k v hk hown
      exact hall k v ((get?_evidenceBody_of_not_own hown).trans hk)
    · intro hall k v hk
      by_cases hown : k ∈ ownNames
      · obtain ⟨s, d, rfl, hm⟩ := h.names k v hk
        obtain ⟨v', hv', hd⟩ := (h.values s d).mp hm
        cases hv'.symm.trans hk
        exact keepsOrder_own hown hk hd
      · exact hall k v ((get?_evidenceBody_of_not_own hown).symm.trans hk) hown

namespace Sample

/-- A machine on which no two texts have one digest. -/
private def apart : Host := { host with sha256 := id }

/-- Two numbers as names: 2 is before 10, and `"10"` before `"2"`. -/
private def numbered : Dict PyKey PyVal :=
  Dict.empty.set (.str (py "m")) (.dict [(.int 2, .none), (.int 10, .none)])

private def named : Dict PyKey PyVal :=
  Dict.empty.set (.str (py "m")) (.dict [(.str (py "b"), .none), (.str (py "a"), .none)])

theorem numbered_unverified :
    ((AuditLog.empty.appends apart [("job.submitted", .dict numbered.items, newYear)]).toOption.map
        fun log => (log.verify apart).toOption) = some (some false)
      ∧ ((writtenEvidence apart (py "j") 1 numbered newYear).toOption.map
        fun doc => (verifyDocument apart doc.joined).toOption) = some (some false) := by
  decide +kernel

theorem named_verified :
    (∃ log, AuditLog.empty.appends apart [("job.submitted", .dict named.items, newYear)] = .ok log
        ∧ log.verify apart = .ok true)
      ∧ ∃ doc, writtenEvidence apart (py "j") 1 named newYear = .ok doc
        ∧ verifyDocument apart doc.joined = .ok true := by
  have hverifies := verifies_after_write (H := apart) Function.injective_id
  have hkeeps : keepsOrder (.dict named.items) = true := by decide +kernel
  refine ⟨?_, ?_⟩
  · have hok : (AuditLog.empty.appends apart
        [("job.submitted", .dict named.items, newYear)]).isOk = true := by decide +kernel
    cases h : AuditLog.empty.appends apart [("job.submitted", .dict named.items, newYear)] with
    | error e =>
      rw [h] at hok
      cases hok
    | ok log =>
      refine ⟨log, rfl, hverifies.1 _ log (fun r hr => ?_) h⟩
      rw [List.mem_singleton.mp hr]
      exact hkeeps
  · have hok : (writtenEvidence apart (py "j") 1 named newYear).isOk = true := by decide +kernel
    cases h : writtenEvidence apart (py "j") 1 named newYear with
    | error e =>
      rw [h] at hok
      cases hok
    | ok doc =>
      refine ⟨doc, rfl, (hverifies.2 _ _ _ _ doc h).mpr ⟨by decide +kernel, ?_⟩⟩
      intro k v hk hown
      have hmem := Dict.mem_items.mpr hk
      obtain ⟨-, rfl⟩ := Prod.mk.inj (List.mem_singleton.mp hmem)
      decide +kernel

end Sample

end Centinal26.Pipeline
