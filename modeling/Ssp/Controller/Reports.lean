import Ssp.Controller.ChargeInfo
import Ssp.Controller.Typed
import Ssp.Lib.Docket

/-!
# One report for each attempt

Each INVITE of a termination call is on a D leg with a Call-ID of its own, and there is to be
one `termination_attempt` record with that Call-ID once the INVITE is over: its final response
was passed on, another INVITE took its place, or it was cancelled.

The INVITEs and the reports about them make a `Docket`; every event of the controller is a step
of it (`Reporting.step`). `settled_iff`: in a run, there is one report for each INVITE that is over
exactly as long as no redirect is followed, which is not reported at all, and no crankback finds a
carrier but no transaction, which is reported twice.
-/

namespace Ssp

namespace Records

/-! ## The records of the attempts -/

/-- What is seen of an attempt and of its record. -/
def seen {β : Type*} (π : TerminationAttempt → CdrInfo → β) (b : Records) (t : ℕ) : Option β :=
  b.attempts[t]?.bind fun a => (b.cdrs.at? a.cdr).map (π a)

/-- The Call-ID of the D leg in the record of an attempt. -/
def dleg (b : Records) (t : ℕ) : Option Bytes :=
  b.attempts[t]?.bind fun a => (b.cdrs.at? a.cdr).map (·.dlegCallId)

/-- Every attempt has a record of its own. -/
structure Own (b : Records) : Prop where
  lt : ∀ (t : ℕ) (a : TerminationAttempt), b.attempts[t]? = some a → a.cdr < b.cdrs.length
  inj : ∀ (t t' : ℕ) (a a' : TerminationAttempt), b.attempts[t]? = some a → b.attempts[t']? = some a' →
    a.cdr = a'.cdr → t = t'

/-- The attempts of `b` keep their records, and the Call-IDs in them. -/
structure Keeps (b b' : Records) : Prop where
  own : b.Own → b'.Own
  length : b.attempts.length ≤ b'.attempts.length
  dleg : b.Own → ∀ t < b.attempts.length, b'.dleg t = b.dleg t

section

variable {b b' b'' : Records} {t t' p : ℕ} {a : TerminationAttempt} {cdr : CdrInfo} {f : CdrInfo → CdrInfo}
  {g : TerminationAttempt → TerminationAttempt} {β : Type*} {π : TerminationAttempt → CdrInfo → β}

theorem Keeps.refl (b : Records) : Keeps b b := ⟨id, le_rfl, fun _ _ _ => rfl⟩

theorem Keeps.trans (h : Keeps b b') (h' : Keeps b' b'') : Keeps b b'' :=
  ⟨fun hb => h'.own (h.own hb), h.length.trans h'.length, fun hb t ht =>
    (h'.dleg (h.own hb) t (ht.trans_le h.length)).trans (h.dleg hb t ht)⟩

theorem seen_of_attempt (ha : b.attempts[t]? = some a) : b.seen π t = (b.cdrs.at? a.cdr).map (π a) := by
  rw [seen, ha]
  rfl

theorem dleg_of_attempt (ha : b.attempts[t]? = some a) :
    b.dleg t = (b.cdrs.at? a.cdr).map (·.dlegCallId) := seen_of_attempt ha

theorem Own.exists_record (h : b.Own) (ha : b.attempts[t]? = some a) : ∃ r, b.cdrs.at? a.cdr = some r :=
  ⟨_, List.getElem?_eq_getElem (h.lt t a ha)⟩

theorem Own.exists_dleg (h : b.Own) (ht : t < b.attempts.length) : ∃ id, b.dleg t = some id := by
  have ha : b.attempts[t]? = some b.attempts[t] := List.getElem?_eq_getElem ht
  obtain ⟨r, hr⟩ := h.exists_record ha
  refine ⟨r.dlegCallId, ?_⟩
  rw [dleg_of_attempt ha, hr]
  rfl

/-- The records that were there are not moved. -/
theorem at?_draft (cdr : CdrInfo) (hp : p < b.cdrs.length) : CdrHeap.at? (b.cdrs ++ [cdr]) p = b.cdrs.at? p :=
  List.getElem?_append_left hp

/-! ### What is seen does not change -/

/-- A change of the records that leaves what is seen of them. -/
theorem seen_of_records (hattempts : b'.attempts = b.attempts)
    (hcdrs : ∀ a, b.attempts[t]? = some a → (b'.cdrs.at? a.cdr).map (π a) = (b.cdrs.at? a.cdr).map (π a)) :
    b'.seen π t = b.seen π t := by
  cases ha : b.attempts[t]? with
  | none => rw [seen, seen, hattempts, ha]; rfl
  | some a =>
    rw [seen_of_attempt (b := b') (hattempts ▸ ha), seen_of_attempt ha]
    exact hcdrs a ha

theorem seen_update (hf : ∀ a cdr, π a (f cdr) = π a cdr) : (b.update p f).seen π t = b.seen π t := by
  refine seen_of_records rfl fun a _ => ?_
  change ((b.cdrs.update p f).at? a.cdr).map _ = _
  by_cases heq : a.cdr = p
  · rw [heq, CdrHeap.at?_update_self, Option.map_map]
    exact congrArg (Option.map · _) (funext (hf a))
  · rw [CdrHeap.at?_update_of_ne heq]

/-- The record of another attempt changes. -/
theorem seen_update_of_ne (hb : b.Own) (ha : b.attempts[t]? = some a) (hne : t' ≠ t) :
    (b.update a.cdr f).seen π t' = b.seen π t' := by
  refine seen_of_records rfl fun a' ha' => congrArg (Option.map _) (CdrHeap.at?_update_of_ne ?_ f)
  exact fun heq => hne (hb.inj t' t a' a ha' ha heq)

theorem seen_file (hb : b.Own) (cdr : CdrInfo) : (b.file cdr).seen π t = b.seen π t :=
  seen_of_records rfl fun a ha => congrArg (Option.map _) (at?_draft cdr (hb.lt t a ha))

theorem seen_postCopy (hb : b.Own) (p : ℕ) (f : CdrInfo → CdrInfo) : (b.postCopy p f).seen π t = b.seen π t := by
  unfold postCopy
  cases b.cdrs.at? p with
  | none => rfl
  | some cdr => exact seen_file hb (f cdr)

/-- An attempt comes from the one that was there. -/
theorem getElem?_of_modifyAttempt {a' : TerminationAttempt} (ha' : (b.modifyAttempt t g).attempts[t']? = some a') :
    ∃ a, b.attempts[t']? = some a ∧ (if t = t' then g a else a) = a' := by
  change (b.attempts.modify t g)[t']? = _ at ha'
  rw [List.getElem?_modify] at ha'
  exact Option.map_eq_some_iff.1 ha'

theorem seen_modifyAttempt (hg : ∀ a, (g a).cdr = a.cdr ∧ π (g a) = π a) :
    (b.modifyAttempt t g).seen π t' = b.seen π t' := by
  cases ha : b.attempts[t']? with
  | none =>
    have hnone : (b.modifyAttempt t g).attempts[t']? = none := by
      rw [Option.eq_none_iff_forall_ne_some]
      intro a' ha'
      obtain ⟨a, ha₁, -⟩ := getElem?_of_modifyAttempt ha'
      rw [ha] at ha₁
      cases ha₁
    rw [seen, seen, hnone, ha]
    rfl
  | some a =>
    have ha' : (b.modifyAttempt t g).attempts[t']? = some (if t = t' then g a else a) := by
      change (b.attempts.modify t g)[t']? = _
      rw [List.getElem?_modify, ha]
      rfl
    rw [seen_of_attempt ha', seen_of_attempt ha]
    split_ifs
    · rw [(hg a).1, (hg a).2]
      rfl
    · rfl

theorem seen_modifyAttempt_of_ne (hne : t' ≠ t) : (b.modifyAttempt t g).seen π t' = b.seen π t' := by
  have ha : (b.modifyAttempt t g).attempts[t']? = b.attempts[t']? := by
    change (b.attempts.modify t g)[t']? = _
    rw [List.getElem?_modify]
    simp only [if_neg hne.symm]
    exact Option.map_id'
  rw [seen, ha]
  rfl

/-- A new attempt, with a new record. -/
theorem seen_addAttempt (hb : b.Own) (cdr : CdrInfo) (ht : t < b.attempts.length) :
    ((b.draft cdr).addAttempt a).seen π t = b.seen π t := by
  have ha : b.attempts[t]? = some b.attempts[t] := List.getElem?_eq_getElem ht
  rw [seen_of_attempt (b := (b.draft cdr).addAttempt a) ((List.getElem?_append_left ht).trans ha), seen_of_attempt ha]
  exact congrArg (Option.map _) (at?_draft cdr (hb.lt t _ ha))

theorem seen_addAttempt_self (cdr : CdrInfo) (ha : a.cdr = b.cdrs.length) :
    ((b.draft cdr).addAttempt a).seen π b.attempts.length = some (π a cdr) := by
  have ha' : ((b.draft cdr).addAttempt a).attempts[b.attempts.length]? = some a := List.getElem?_concat_length
  rw [seen_of_attempt ha', ha]
  exact congrArg (Option.map _) (b.cdrs.at?_alloc_self cdr)

/-! ### The attempts keep their records -/

/-- A change of the records that leaves the Call-IDs. -/
theorem Keeps.of_records (hattempts : b'.attempts = b.attempts) (hlength : b.cdrs.length ≤ b'.cdrs.length)
    (hdleg : b.Own → ∀ t, b'.dleg t = b.dleg t) : Keeps b b' := by
  refine ⟨fun hb => ⟨fun t a ha => ?_, ?_⟩, hattempts ▸ le_rfl, fun hb t _ => hdleg hb t⟩
  · exact (hb.lt t a (hattempts ▸ ha)).trans_le hlength
  · rw [hattempts]
    exact hb.inj

theorem keeps_update (hf : ∀ cdr, (f cdr).dlegCallId = cdr.dlegCallId) : Keeps b (b.update p f) :=
  .of_records rfl (CdrHeap.length_update _ _ _).ge fun _ _ => seen_update fun _ => hf

theorem keeps_file (b : Records) (cdr : CdrInfo) : Keeps b (b.file cdr) :=
  .of_records rfl (by simp [file]) fun hb _ => seen_file hb cdr

theorem keeps_post (b : Records) (p : ℕ) : Keeps b (b.post p) := .of_records rfl le_rfl fun _ _ => rfl

theorem keeps_postCopy (b : Records) (p : ℕ) (f : CdrInfo → CdrInfo) : Keeps b (b.postCopy p f) := by
  unfold postCopy
  cases b.cdrs.at? p with
  | none => exact .refl b
  | some cdr => exact keeps_file b (f cdr)

theorem keeps_modifyAttempt (t : ℕ) (hg : ∀ a, (g a).cdr = a.cdr) : Keeps b (b.modifyAttempt t g) := by
  -- Each attempt comes from one with the same record.
  have hget : ∀ (t' : ℕ) (a' : TerminationAttempt), (b.modifyAttempt t g).attempts[t']? = some a' →
      ∃ a, b.attempts[t']? = some a ∧ a'.cdr = a.cdr := by
    intro t' a' ha'
    obtain ⟨a, ha, rfl⟩ := getElem?_of_modifyAttempt ha'
    refine ⟨a, ha, ?_⟩
    split_ifs
    · exact hg a
    · rfl
  refine ⟨fun hb => ⟨fun t' a' ha' => ?_, fun t₁ t₂ a₁ a₂ h₁ h₂ heq => ?_⟩, ?_, fun _ _ _ => ?_⟩
  · obtain ⟨a, ha, hcdr⟩ := hget t' a' ha'
    rw [hcdr]
    exact hb.lt t' a ha
  · obtain ⟨a₁', h₁', hcdr₁⟩ := hget t₁ a₁ h₁
    obtain ⟨a₂', h₂', hcdr₂⟩ := hget t₂ a₂ h₂
    exact hb.inj t₁ t₂ a₁' a₂' h₁' h₂' (hcdr₁.symm.trans (heq.trans hcdr₂))
  · exact (List.length_modify g b.attempts t).ge
  · exact seen_modifyAttempt fun a => ⟨hg a, rfl⟩

/-- A new attempt, with a new record. -/
theorem keeps_addAttempt (b : Records) (cdr : CdrInfo) (ha : a.cdr = b.cdrs.length) :
    Keeps b ((b.draft cdr).addAttempt a) := by
  -- An attempt is an old one, or the new one.
  have hget : ∀ (t' : ℕ) (a' : TerminationAttempt), ((b.draft cdr).addAttempt a).attempts[t']? = some a' →
      b.attempts[t']? = some a' ∨ t' = b.attempts.length ∧ a' = a := by
    intro t' a' ha'
    change (b.attempts ++ [a])[t']? = _ at ha'
    rcases lt_or_ge t' b.attempts.length with hlt | hge
    · rw [List.getElem?_append_left hlt] at ha'
      exact .inl ha'
    · obtain ⟨hlt, heq⟩ := List.getElem?_eq_some_iff.1 ha'
      rw [List.length_append, List.length_singleton] at hlt
      obtain rfl : t' = b.attempts.length := by omega
      rw [List.getElem_concat_length rfl] at heq
      exact .inr ⟨rfl, heq.symm⟩
  refine ⟨fun hb => ⟨fun t' a' ha' => ?_, fun t₁ t₂ a₁ a₂ h₁ h₂ heq => ?_⟩, ?_, fun hb _ ht =>
    seen_addAttempt hb cdr ht⟩
  · change a'.cdr < (b.cdrs ++ [cdr]).length
    rw [List.length_append]
    rcases hget t' a' ha' with ha' | ⟨-, rfl⟩
    · exact (hb.lt t' a' ha').trans (Nat.lt_succ_self _)
    · rw [ha]
      exact Nat.lt_succ_self _
  · rcases hget t₁ a₁ h₁ with h₁ | ⟨ht₁, ha₁⟩ <;> rcases hget t₂ a₂ h₂ with h₂ | ⟨ht₂, ha₂⟩
    · exact hb.inj t₁ t₂ a₁ a₂ h₁ h₂ heq
    · exact absurd (hb.lt t₁ a₁ h₁) (not_lt.2 (heq.trans (ha₂ ▸ ha)).ge)
    · exact absurd (hb.lt t₂ a₂ h₂) (not_lt.2 (heq.symm.trans (ha₁ ▸ ha)).ge)
    · exact ht₁.trans ht₂.symm
  · simp [addAttempt, draft]

theorem dleg_addAttempt (b : Records) (cdr : CdrInfo) (ha : a.cdr = b.cdrs.length) :
    ((b.draft cdr).addAttempt a).dleg b.attempts.length = some cdr.dlegCallId := seen_addAttempt_self cdr ha

theorem Own.update (hb : b.Own) (p : ℕ) (f : CdrInfo → CdrInfo) : (b.update p f).Own :=
  ⟨fun t a ha => (hb.lt t a ha).trans_le (CdrHeap.length_update _ _ _).ge, hb.inj⟩

/-- The record of an attempt changes. -/
theorem seen_update_self (ha : b.attempts[t]? = some a) (hcdr : b.cdrs.at? a.cdr = some cdr) :
    (b.update a.cdr f).seen π t = some (π a (f cdr)) := by
  rw [seen_of_attempt (b := b.update a.cdr f) ha]
  change ((b.cdrs.update a.cdr f).at? a.cdr).map _ = _
  rw [CdrHeap.at?_update_self, hcdr]
  rfl

/-- The record of an attempt gets another Call-ID. -/
theorem dleg_setDleg (hb : b.Own) (ha : b.attempts[t]? = some a) (callId : Bytes) :
    (b.update a.cdr (Controller.setDleg callId)).Own ∧
      (b.update a.cdr (Controller.setDleg callId)).dleg t = some callId ∧
      ∀ t' ≠ t, (b.update a.cdr (Controller.setDleg callId)).dleg t' = b.dleg t' := by
  obtain ⟨r, hr⟩ := hb.exists_record ha
  exact ⟨hb.update _ _, seen_update_self ha hr, fun t' hne => seen_update_of_ne hb ha hne⟩

/-! ## What is posted -/

/-- A copy of the record of an attempt says which D leg it is about. -/
theorem posts_postCopy (ha : b.attempts[t]? = some a) (hb : b.Own) (f : CdrInfo → CdrInfo) :
    ∃ r, b.dleg t = some r.dlegCallId ∧ Posts b (b.postCopy a.cdr f) [f r] := by
  obtain ⟨r, hr⟩ := hb.exists_record ha
  refine ⟨r, ?_, ?_⟩
  · rw [dleg_of_attempt ha, hr]
    rfl
  · unfold postCopy
    rw [hr]
    exact posts_file b (f r)

end

end Records

/-- The Call-ID that nta chooses for the B leg in an event, which is the D leg of a termination
    call. -/
def ControllerEvent.callId : ControllerEvent → Bytes
  | .requestOutsideDialog _ _ nta | .inviteResponse _ _ nta => nta.callId
  | _ => []

namespace Controller

/-- An INVITE is over: its transaction was destroyed, after its final response was passed on or
    led to another INVITE, or with a CANCEL. -/
def Ended (c : Controller) (orq : Orq) : Prop := ∃ o ∈ c.calls.outgoing orq, o.destroyed ≠ 0

/-- What is reported exactly once: nothing is over with the event, or it is not a redirect that
    leads to another INVITE, and not a crankback that does not. -/
def ReportsOnce (c : Controller) : ControllerEvent → Prop
  | .inviteResponse orq sip nta => c.Reached orq → ∀ t a, c.attemptOf orq = some (t, a) →
    ¬((300 ≤ sip.status ∧ sip.status ≤ 399) ∧ nta.bLeg = true ∧ nta.orq = true) ∧
      ¬(c.CranksBack a sip ∧ ¬(nta.bLeg = true ∧ nta.orq = true))
  | _ => True

/-! ## The attempts -/

/-- Every INVITE that has an attempt is not over, is the only one of its attempt, and has the header
    that nta needs for it. -/
structure AttemptInv (c : Controller) : Prop where
  own : c.records.Own
  lt : ∀ orq t, c.calls.mapTerminationAttempts orq = some t → t < c.records.attempts.length
  inj : ∀ orq orq' t, c.calls.mapTerminationAttempts orq = some t →
    c.calls.mapTerminationAttempts orq' = some t → orq = orq'
  live : ∀ orq, c.calls.mapTerminationAttempts orq ≠ none →
    ∃ o ∈ c.calls.outgoing orq, o.callback = .responseToInvite ∧ o.destroyed = 0
  charged : c.Charged

/-- The INVITEs with an attempt that are not the one that `orq` says are left alone. -/
def LeavesInvites (c c' : Controller) (gone : Option Orq) : Prop :=
  ∀ orq, gone ≠ some orq → c.calls.mapTerminationAttempts orq ≠ none →
    c'.calls.outgoing orq = c.calls.outgoing orq

/-- What an event does to the attempts; `Once` says whether it reports what is over once. -/
inductive Effect (Once : Prop) (callId : Bytes) (c c' : Controller) : Prop
  | same (new : List CdrInfo) (honce : Once)
      (hattempts : c'.calls.mapTerminationAttempts = c.calls.mapTerminationAttempts)
      (hout : LeavesInvites c c' none) (hkeeps : Records.Keeps c.records c'.records)
      (hposts : Records.Posts c.records c'.records new)
      (hnew : ∀ r ∈ new, r.cdrType ≠ .terminationAttempt)
  | opened (orq : Orq) (honce : Once) (horq : c.calls.next ≤ orq.address)
      (hattempts : c'.calls.mapTerminationAttempts =
        Function.update c.calls.mapTerminationAttempts orq (some c.records.attempts.length))
      (hlive : ∃ o ∈ c'.calls.outgoing orq, o.callback = .responseToInvite ∧ o.destroyed = 0)
      (hout : LeavesInvites c c' none) (hkeeps : Records.Keeps c.records c'.records)
      (hlength : c.records.attempts.length < c'.records.attempts.length)
      (hdleg : c'.records.dleg c.records.attempts.length = some callId)
      (hposts : Records.Posts c.records c'.records [])
  | closed (orq : Orq) (t : ℕ) (new : List CdrInfo) (honce : Once ↔ new.length = 1)
      (ht : c.calls.mapTerminationAttempts orq = some t)
      (hattempts : c'.calls.mapTerminationAttempts =
        Function.update c.calls.mapTerminationAttempts orq none)
      (hended : c'.Ended orq) (hout : LeavesInvites c c' (some orq))
      (hkeeps : Records.Keeps c.records c'.records) (hposts : Records.Posts c.records c'.records new)
      (hnew : ∀ r ∈ new, r.cdrType = .terminationAttempt ∧ c.records.dleg t = some r.dlegCallId)
  | replaced (orq orqNew : Orq) (t : ℕ) (new : List CdrInfo) (honce : Once ↔ new.length = 1)
      (ht : c.calls.mapTerminationAttempts orq = some t) (horq : c.calls.next ≤ orqNew.address)
      (hattempts : c'.calls.mapTerminationAttempts =
        Function.update (Function.update c.calls.mapTerminationAttempts orq none) orqNew (some t))
      (hended : c'.Ended orq)
      (hlive : ∃ o ∈ c'.calls.outgoing orqNew, o.callback = .responseToInvite ∧ o.destroyed = 0)
      (hout : LeavesInvites c c' (some orq)) (hown : c'.records.Own)
      (hlength : c.records.attempts.length ≤ c'.records.attempts.length)
      (hdleg : c'.records.dleg t = some callId)
      (hdlegs : ∀ t' < c.records.attempts.length, t' ≠ t → c'.records.dleg t' = c.records.dleg t')
      (hposts : Records.Posts c.records c'.records new)
      (hnew : ∀ r ∈ new, r.cdrType = .terminationAttempt ∧ c.records.dleg t = some r.dlegCallId)

section

variable {c c' : Controller} {orq : Orq} {irq : Irq}

theorem AttemptInv.attemptOf (h : c.AttemptInv) {t : ℕ} (ht : c.calls.mapTerminationAttempts orq = some t) :
    ∃ a, c.attemptOf orq = some (t, a) := by
  refine ⟨c.records.attempts.get ⟨t, h.lt orq t ht⟩, ?_⟩
  rw [Controller.attemptOf, ht, Option.bind_some]
  exact congrArg (Option.map _) (List.getElem?_eq_getElem (h.lt orq t ht))

/-- Where there is no attempt, there is none in the table. -/
theorem AttemptInv.attempt_of_none (h : c.AttemptInv) (ht : c.attemptOf orq = none) :
    c.calls.mapTerminationAttempts orq = none := by
  by_contra hne
  obtain ⟨t, ht'⟩ := Option.ne_none_iff_exists'.1 hne
  obtain ⟨a, ha⟩ := h.attemptOf ht'
  rw [ht] at ha
  cases ha

/-- A request inside a dialog is not the INVITE of an attempt. -/
theorem AttemptInv.none_of_callback (h : c.AttemptInv)
    (horq : ∃ o ∈ c.calls.outgoing orq, o.callback = .responseToRequestInsideDialog) :
    c.calls.mapTerminationAttempts orq = none := by
  by_contra hne
  obtain ⟨o, ho, hcallback, -⟩ := h.live orq hne
  obtain ⟨o', ho', hcallback'⟩ := horq
  obtain rfl : o = o' := Option.mem_unique ho ho'
  exact Callback.noConfusion (hcallback.symm.trans hcallback')

/-- An event that leaves the attempts and all client transactions. -/
theorem Effect.of_calls {Once : Prop} {callId : Bytes} {new : List CdrInfo} (honce : Once)
    (hattempts : c'.calls.mapTerminationAttempts = c.calls.mapTerminationAttempts)
    (hout : c'.calls.outgoing = c.calls.outgoing) (hkeeps : Records.Keeps c.records c'.records)
    (hposts : Records.Posts c.records c'.records new) (hnew : ∀ r ∈ new, r.cdrType ≠ .terminationAttempt) :
    Effect Once callId c c' :=
  .same new honce hattempts (fun orq _ _ => congrFun hout orq) hkeeps hposts hnew

/-- The same, if the records are left alone, too. -/
theorem Effect.of_frame {Once : Prop} {callId : Bytes} (honce : Once)
    (hattempts : c'.calls.mapTerminationAttempts = c.calls.mapTerminationAttempts)
    (hout : LeavesInvites c c' none) (hrecords : c'.records = c.records) : Effect Once callId c c' :=
  .same [] honce hattempts hout (hrecords ▸ .refl _) (Records.posts_nil (congrArg _ hrecords))
    fun _ hr => absurd hr List.not_mem_nil

/-- The same, where the tables are known. -/
theorem Effect.of_tables {Once : Prop} {callId : Bytes} {u : Calls} (honce : Once) (hcalls : c'.calls = u)
    (hattempts : u.mapTerminationAttempts = c.calls.mapTerminationAttempts)
    (hout : u.outgoing = c.calls.outgoing) (hrecords : c'.records = c.records) : Effect Once callId c c' := by
  subst hcalls
  exact .of_frame honce hattempts (fun orq _ _ => congrFun hout orq) hrecords

/-- A transaction is destroyed that is not the INVITE of an attempt. -/
theorem leavesInvites_destroyOutgoing (ht : c.calls.mapTerminationAttempts orq = none)
    (hout : c'.calls.outgoing = (c.calls.destroyOutgoing orq).outgoing) : LeavesInvites c c' none := by
  intro orq' _ ht'
  rw [hout]
  refine Function.update_of_ne ?_ _ _
  rintro rfl
  exact ht' ht

/-- A transaction comes in. -/
theorem leavesInvites_update (h : c.calls.Typed) (orq : Orq) (horq : c.calls.next ≤ orq.address)
    {o : Option Outgoing}
    (hout : c'.calls.outgoing = Function.update c.calls.outgoing orq o) : LeavesInvites c c' none := by
  intro orq' _ ht'
  rw [hout]
  refine Function.update_of_ne ?_ _ _
  rintro rfl
  exact absurd (h.attempt_lt _ ht') (not_lt.2 horq)

/-! ## New requests -/

/-- A new request, whether a call comes from it or not. -/
theorem effect_requestOutsideDialog (h : c.calls.Typed) (sip : Request) (uuid : Bytes) (nta : Creations) :
    Effect True nta.callId c (c.requestOutsideDialog sip uuid nta) := by
  rcases c.requestOutsideDialog_cases sip uuid nta with ⟨hcalls, hrefused⟩ | hopened
  · obtain ⟨i, status, n, -, -, -, heq⟩ := hcalls
    have hattempts : (c.requestOutsideDialog sip uuid nta).calls.mapTerminationAttempts =
        c.calls.mapTerminationAttempts := by rw [heq]; rfl
    have hout : (c.requestOutsideDialog sip uuid nta).calls.outgoing = c.calls.outgoing := by rw [heq]; rfl
    cases hrefused with
    | unreported hrecords => exact .of_frame trivial hattempts (fun orq _ _ => congrFun hout orq) hrecords
    | reported cdr htype huuid hrecords =>
      refine .of_calls trivial hattempts hout (hrecords ▸ Records.keeps_file _ _)
        (hrecords ▸ Records.posts_file _ _) fun r hr => ?_
      obtain rfl := List.mem_singleton.1 hr
      rw [htype]
      exact CdrEvent.noConfusion
    | attempted cdr a ha hrecords =>
      exact .of_calls trivial hattempts hout (hrecords ▸ Records.keeps_addAttempt _ cdr ha.1)
        (Records.posts_nil (hrecords ▸ rfl)) fun r hr => absurd hr List.not_mem_nil
  · cases hopened with
    | origination request info cdr hinfo hcalls hcdr hrecords =>
      refine .same [cdr] trivial (by rw [hcalls]; rfl) ?_ (hrecords ▸ Records.keeps_file _ _)
        (hrecords ▸ Records.posts_file _ _) fun r hr => ?_
      · exact leavesInvites_update h ⟨c.calls.next + 3⟩ (Nat.le_add_right _ 3) (by rw [hcalls]; rfl)
      · obtain rfl := List.mem_singleton.1 hr
        rw [hcdr.type]
        exact CdrEvent.noConfusion
    | termination aLeg n request info cdr a hn haLeg hinfo hcalls ha hcdr hrecords =>
      have hfresh : c.calls.next ≤ n + 1 := (hn.trans (Nat.lt_succ_self n)).le
      refine .opened ⟨n + 1⟩ trivial hfresh ?_ ?_ ?_ ?_ ?_ ?_ (Records.posts_nil (hrecords ▸ rfl))
      · have hnone : c.calls.mapTerminationAttempts ⟨n + 1⟩ = none := by
          by_contra hne
          exact absurd (h.attempt_lt _ hne) (not_lt.2 hfresh)
        rw [hcalls]
        exact Calls.insertNew_of_none hnone _
      · rw [hcalls]
        exact ⟨_, Function.update_self _ _ _, rfl, rfl⟩
      · exact leavesInvites_update h ⟨n + 1⟩ hfresh (by rw [hcalls]; rfl)
      · exact hrecords ▸ Records.keeps_addAttempt _ cdr ha.1
      · rw [hrecords]
        change _ < (c.records.attempts ++ [a]).length
        rw [List.length_append]
        exact Nat.lt_succ_self _
      · rw [hrecords, Records.dleg_addAttempt _ cdr ha.1, hcdr]

/-! ## Responses -/

theorem reportsOnce_iff {sip : Response} {nta : Creations} {t : ℕ} {a : TerminationAttempt}
    (hreached : c.Reached orq) (ht : c.attemptOf orq = some (t, a)) :
    c.ReportsOnce (.inviteResponse orq sip nta) ↔
      ¬((300 ≤ sip.status ∧ sip.status ≤ 399) ∧ nta.bLeg = true ∧ nta.orq = true) ∧
        ¬(c.CranksBack a sip ∧ ¬(nta.bLeg = true ∧ nta.orq = true)) := by
  refine ⟨fun h => h hreached t a ht, fun h _ t' a' ht' => ?_⟩
  obtain ⟨-, rfl⟩ := Prod.mk.inj (Option.some_inj.1 (ht.symm.trans ht'))
  exact h

/-- The transaction of an INVITE is destroyed, once or more often. -/
theorem ended_of_destroyed {u : Calls} (hu : ∃ o, u.outgoing orq = some o)
    (hout : c'.calls.outgoing = (u.destroyOutgoing orq).outgoing) : c'.Ended orq := by
  obtain ⟨o, ho⟩ := hu
  refine ⟨{ o with destroyed := o.destroyed + 1 }, ?_, Nat.succ_ne_zero _⟩
  rw [hout]
  change _ ∈ Function.update u.outgoing orq _ orq
  rw [Function.update_self, ho]
  rfl

/-- The attempt of an INVITE that is over, and the other ones. -/
theorem leavesInvites_gone {u : Calls} (hu : ∀ orq' ≠ orq, c.calls.mapTerminationAttempts orq' ≠ none →
      u.outgoing orq' = c.calls.outgoing orq')
    (hout : c'.calls.outgoing = (u.destroyOutgoing orq).outgoing) : LeavesInvites c c' (some orq) := by
  intro orq' hne ht'
  have hne' : orq' ≠ orq := fun heq => hne (congrArg some heq.symm)
  rw [hout, ← hu orq' hne' ht']
  exact Function.update_of_ne hne' _ _

/-- A report about the attempt `t`, made after `b` became `b'`. -/
theorem report_spec {b b' : Records} {t : ℕ} {a : TerminationAttempt} {status : ℤ} {f : CdrInfo → CdrInfo}
    (hb : b.Own) (hlt : t < b.attempts.length) (hkeeps : Records.Keeps b b') (ha : b'.attempts[t]? = some a)
    (hf : IsReport .terminationAttempt status f) :
    Records.Keeps b (b'.postCopy a.cdr f) ∧ ∃ r, Records.Posts b' (b'.postCopy a.cdr f) [r] ∧
      r.cdrType = .terminationAttempt ∧ b.dleg t = some r.dlegCallId := by
  obtain ⟨r, hr, hposts⟩ := Records.posts_postCopy ha (hkeeps.own hb) f
  refine ⟨hkeeps.trans (Records.keeps_postCopy _ _ _), f r, hposts, hf.type r, ?_⟩
  rw [hf.dlegCallId, ← hr, hkeeps.dleg hb t hlt]

/-- The attempt after a change of it. -/
theorem getElem?_of_counts {b : Records} {t : ℕ} {a : TerminationAttempt} {n : UInt32}
    {g : TerminationAttempt → TerminationAttempt} (hg : Counts n g) (ha : b.attempts[t]? = some a) :
    (b.modifyAttempt t g).attempts[t]? = some (g a) ∧ (g a).cdr = a.cdr :=
  ⟨Records.getElem?_modifyAttempt ha _, (hg a).1⟩

/-- The records of an attempt that is cranked back: it is reported, and goes on. -/
theorem crankback_spec {b : Records} {t : ℕ} {a : TerminationAttempt} {status : ℤ} {n : UInt32}
    {f k : CdrInfo → CdrInfo} {g : TerminationAttempt → TerminationAttempt} (hb : b.Own) (ha : b.attempts[t]? = some a)
    (hf : IsReport .terminationAttempt status f) (hg : Counts n g) (hk : KeepsIds k) :
    Records.Keeps b (((b.postCopy a.cdr f).modifyAttempt t g).update a.cdr k) ∧
      (((b.postCopy a.cdr f).modifyAttempt t g).update a.cdr k).attempts[t]? = some (g a) ∧ (g a).cdr = a.cdr ∧
      ∃ r, Records.Posts b (b.postCopy a.cdr f) [r] ∧ r.cdrType = .terminationAttempt ∧
        b.dleg t = some r.dlegCallId := by
  obtain ⟨hkeeps, hreport⟩ := report_spec hb (List.getElem?_eq_some_iff.1 ha).1 (.refl b) ha hf
  have ha₁ : (b.postCopy a.cdr f).attempts[t]? = some a := by
    rw [Records.postCopy_attempts]
    exact ha
  obtain ⟨ha', hcdr⟩ := getElem?_of_counts hg ha₁
  have hmodify : Records.Keeps b ((b.postCopy a.cdr f).modifyAttempt t g) :=
    hkeeps.trans (Records.keeps_modifyAttempt t fun a => (hg a).1)
  exact ⟨hmodify.trans (Records.keeps_update hk.dlegCallId), ha', hcdr, hreport⟩

/-- The tables after the INVITE of an attempt is settled. -/
theorem closed_tables (h : c.AttemptInv) (c' : Controller) {t : ℕ} (ht : c.calls.mapTerminationAttempts orq = some t)
    (hattempts : c'.calls.mapTerminationAttempts = Function.update c.calls.mapTerminationAttempts orq none)
    (hout : c'.calls.outgoing = (c.calls.destroyOutgoing orq).outgoing) :
    c'.calls.mapTerminationAttempts = Function.update c.calls.mapTerminationAttempts orq none ∧
      c'.Ended orq ∧ LeavesInvites c c' (some orq) := by
  obtain ⟨o, ho, -⟩ := h.live orq (ht ▸ Option.some_ne_none t)
  exact ⟨hattempts, ended_of_destroyed ⟨o, ho⟩ hout, leavesInvites_gone (fun _ _ _ => rfl) hout⟩

/-- The tables after the INVITE of an attempt failed. -/
theorem failed_tables {bLeg : Leg} {n : ℕ} {reply : Reply} (hcalls : c'.calls =
      ((Calls.eraseAttempt { c.calls with next := n } orq).settle irq orq reply []).clearDialog bLeg) :
    c'.calls.transactions = c.calls.transactions.eraseRight orq ∧
      c'.calls.mapTerminationAttempts = Function.update c.calls.mapTerminationAttempts orq none ∧
      c'.calls.outgoing = (c.calls.destroyOutgoing orq).outgoing := by
  rw [hcalls, Calls.clearDialog_transactions, Calls.clearDialog_mapTerminationAttempts, Calls.clearDialog_outgoing]
  exact ⟨rfl, rfl, rfl⟩

/-- The tables after a call was cancelled. -/
theorem cancelled_tables {leg : Leg} (hcalls : c'.calls =
      ((((c.calls.record (.cancelled irq)).destroyOutgoing orq).clearTransaction orq).clearDialog leg).eraseAttempt
        orq) :
    c'.calls.transactions = c.calls.transactions.eraseRight orq ∧
      c'.calls.mapTerminationAttempts = Function.update c.calls.mapTerminationAttempts orq none ∧
      c'.calls.outgoing = ((c.calls.destroyOutgoing orq).destroyOutgoing orq).outgoing := by
  rw [hcalls, Calls.eraseAttempt, Calls.clearDialog_mapTerminationAttempts]
  exact ⟨Calls.clearDialog_transactions _ _, rfl, Calls.clearDialog_outgoing _ _⟩

/-- The tables after another INVITE took the place of the one of an attempt. -/
theorem replaced_tables (hs : c.calls.Typed) (h : c.AttemptInv) {t : ℕ}
    (ht : c.calls.mapTerminationAttempts orq = some t) {bLeg bLegNew : Leg} {request : OutgoingRequest} {n : ℕ}
    (hcalls : c'.calls = c.calls.replaceAttempt irq orq ⟨c.calls.next + 1⟩ bLeg bLegNew request t n) :
    c'.calls.mapTerminationAttempts =
        Function.update (Function.update c.calls.mapTerminationAttempts orq none) ⟨c.calls.next + 1⟩ (some t) ∧
      c'.Ended orq ∧
      (∃ o ∈ c'.calls.outgoing ⟨c.calls.next + 1⟩, o.callback = .responseToInvite ∧ o.destroyed = 0) ∧
      LeavesInvites c c' (some orq) := by
  have hlt := hs.attempt_lt orq (ht ▸ Option.some_ne_none t)
  have hne : ∀ orq' : Orq, orq'.address < c.calls.next → orq' ≠ ⟨c.calls.next + 1⟩ := by
    rintro orq' hlt' rfl
    exact Nat.not_succ_lt_self hlt'
  obtain ⟨o, ho, -⟩ := h.live orq (ht ▸ Option.some_ne_none t)
  have hout := c.calls.replaceAttempt_outgoing irq orq ⟨c.calls.next + 1⟩ bLeg bLegNew request t n
  rw [← hcalls] at hout
  refine ⟨?_, ended_of_destroyed ⟨o, ?_⟩ hout, ?_, leavesInvites_gone (fun orq' _ ht' => ?_) hout⟩
  · have hnone : Function.update c.calls.mapTerminationAttempts orq none ⟨c.calls.next + 1⟩ = none := by
      rw [Function.update_of_ne (hne orq hlt).symm]
      by_contra hne'
      exact hne _ (hs.attempt_lt _ hne') rfl
    rw [hcalls, Calls.replaceAttempt_mapTerminationAttempts]
    exact Calls.insertNew_of_none hnone t
  · exact (Function.update_of_ne (hne orq hlt) _ _).trans ho
  · rw [hout]
    refine ⟨⟨bLegNew, .responseToInvite, request, 0⟩, ?_, rfl, rfl⟩
    change Function.update (Function.update c.calls.outgoing _ _) orq _ _ = _
    rw [Function.update_of_ne (hne orq hlt).symm]
    exact Function.update_self _ _ _
  · exact Function.update_of_ne (hne orq' (hs.attempt_lt orq' ht')) _ _

/-- The final response to the INVITE of an attempt. -/
theorem Outcome.effect {bLeg : Leg} {t : ℕ} {a : TerminationAttempt} {sip : Response} {nta : Creations}
    (houtcome : Outcome c irq orq bLeg t a sip nta c') (hs : c.calls.Typed) (h : c.AttemptInv)
    (hreached : c.Reached orq) (ht : c.attemptOf orq = some (t, a)) :
    Effect (c.ReportsOnce (.inviteResponse orq sip nta)) nta.callId c c' := by
  obtain ⟨ht', ha⟩ := attemptOf_eq_some ht
  have hlt := h.lt orq t ht'
  rw [reportsOnce_iff hreached ht]
  cases houtcome with
  | answered reply f hstatus hreply hf hcalls hrecords =>
    obtain ⟨hattempts, hended, hout⟩ := closed_tables h c' ht' (by rw [hcalls]; rfl) (by rw [hcalls]; rfl)
    obtain ⟨hkeeps, r, hposts, hr⟩ := report_spec h.own hlt (.refl _) ha hf
    rw [← hrecords] at hkeeps hposts
    refine .closed orq t [r] (iff_of_true ⟨fun h => ?_, fun h => h.1.status_ne.1 hstatus⟩ rfl) ht' hattempts hended
      hout hkeeps hposts fun r' hr' => List.mem_singleton.1 hr' ▸ hr
    omega
  | failed n reply g f hstatus hcrank hredirect hn hreply hg hf hcalls hrecords =>
    obtain ⟨-, hattempts', hout'⟩ := failed_tables hcalls
    obtain ⟨hattempts, hended, hout⟩ := closed_tables h c' ht' hattempts' hout'
    obtain ⟨ha', hcdr⟩ := getElem?_of_counts (b := c.records) hg ha
    obtain ⟨hkeeps, r, hposts, hr⟩ := report_spec h.own hlt (Records.keeps_modifyAttempt t fun a => (hg a).1)
      ha' hf
    rw [hcdr, ← hrecords] at hkeeps hposts
    refine .closed orq t [r] (iff_of_true ⟨fun hboth => ?_, fun h => hcrank h.1⟩ rfl) ht' hattempts
      hended hout hkeeps hposts fun r' hr' => List.mem_singleton.1 hr' ▸ hr
    exact hredirect hboth.1 ((h.charged.grantsInvite_iff ht nta).2 hboth.2)
  | redirected request g hstatus hnta hg hcalls hrecords =>
    obtain ⟨hattempts, hended, hlive, hout⟩ := replaced_tables hs h ht' hcalls
    have hkeeps : Records.Keeps c.records (c.records.modifyAttempt t g) :=
      Records.keeps_modifyAttempt t fun a => (hg a).1
    obtain ⟨ha', hcdr⟩ := getElem?_of_counts (b := c.records) hg ha
    obtain ⟨hown, hdleg, hdlegs⟩ := Records.dleg_setDleg (hkeeps.own h.own) ha' nta.callId
    rw [hcdr, ← hrecords] at hown hdleg hdlegs
    have hnta' := (h.charged.grantsInvite_iff ht nta).1 hnta
    refine .replaced orq ⟨c.calls.next + 1⟩ t [] (iff_of_false (fun h => h.1 ⟨hstatus, hnta'⟩) (by simp)) ht'
      (Nat.le_succ _) hattempts hended hlive hout hown ?_ hdleg (fun t' hlt' hne => ?_)
      (Records.posts_nil (hrecords ▸ rfl)) fun r hr => absurd hr List.not_mem_nil
    · rw [hrecords]
      exact hkeeps.length
    · rw [hdlegs t' hne, hkeeps.dleg h.own t' hlt']
  | crankedBack request f g k hcrank hnta hf hg hk hcalls hrecords =>
    obtain ⟨hattempts, hended, hlive, hout⟩ := replaced_tables hs h ht' hcalls
    obtain ⟨hkeeps, ha', hcdr, r, hposts, hr⟩ := crankback_spec h.own ha hf hg hk
    obtain ⟨hown, hdleg, hdlegs⟩ := Records.dleg_setDleg (hkeeps.own h.own) ha' nta.callId
    rw [hcdr, ← hrecords] at hown hdleg hdlegs
    refine .replaced orq ⟨c.calls.next + 1⟩ t [r]
      (iff_of_true ⟨fun h => hcrank.status_ne.2 h.1, fun h => h.2 hnta⟩ rfl) ht' (Nat.le_succ _) hattempts hended
      hlive hout hown ?_ hdleg (fun t' hlt' hne => ?_) ?_ fun r' hr' => List.mem_singleton.1 hr' ▸ hr
    · rw [hrecords]
      exact hkeeps.length
    · rw [hdlegs t' hne, hkeeps.dleg h.own t' hlt']
    · rw [hrecords]
      exact hposts
  | crankbackFailed n reply f f' g k hcrank hnta hn hreply hf hf' hg hk hcalls hrecords =>
    obtain ⟨-, hattempts', hout'⟩ := failed_tables hcalls
    obtain ⟨hattempts, hended, hout⟩ := closed_tables h c' ht' hattempts' hout'
    obtain ⟨hkeeps₂, ha', hcdr, r, hposts, hr⟩ := crankback_spec h.own ha hf hg hk
    obtain ⟨hkeeps, r', hposts', hr'⟩ := report_spec h.own hlt hkeeps₂ ha' hf'
    rw [hcdr, ← hrecords] at hkeeps hposts'
    refine .closed orq t ([r] ++ [r']) (iff_of_false (fun h => h.2 ⟨hcrank, hnta⟩) (by simp)) ht' hattempts hended
      hout hkeeps (hposts.trans hposts') fun r'' hr'' => ?_
    rcases List.mem_append.1 hr'' with hmem | hmem
    · exact List.mem_singleton.1 hmem ▸ hr
    · exact List.mem_singleton.1 hmem ▸ hr'

/-- The tables after a final response to the INVITE of an origination call. -/
theorem origination_tables {sip : Response} (ht : c.attemptOf orq = none) (hfinal : 200 ≤ sip.status) (irq : Irq)
    (aLeg bLeg : Leg) (nta : Creations) :
    (c.processInviteResponse irq orq aLeg bLeg sip nta).calls.transactions = c.calls.transactions.eraseRight orq ∧
      (c.processInviteResponse irq orq aLeg bLeg sip nta).calls.mapTerminationAttempts =
        c.calls.mapTerminationAttempts ∧
      (c.processInviteResponse irq orq aLeg bLeg sip nta).calls.outgoing =
        (c.calls.destroyOutgoing orq).outgoing := by
  obtain ⟨reply, f, -, -, hcalls, -⟩ := processInviteResponse_origination ht hfinal irq aLeg bLeg nta
  rcases hcalls with ⟨-, k, -, heq⟩ | ⟨-, heq⟩
  · rw [heq]
    exact ⟨rfl, rfl, rfl⟩
  · rw [heq, Calls.clearDialog_transactions, Calls.clearDialog_mapTerminationAttempts, Calls.clearDialog_outgoing]
    exact ⟨rfl, rfl, rfl⟩

/-- A response to the INVITE of a call. -/
theorem effect_inviteResponse (hs : c.calls.Typed) (h : c.AttemptInv) (sip : Response) (nta : Creations) :
    Effect (c.ReportsOnce (.inviteResponse orq sip nta)) nta.callId c
      (c.processInviteResponseInsideDialog orq sip nta) := by
  by_cases hreached : c.Reached orq
  · rw [inviteResponse_of_reached hreached]
    by_cases hfinal : 200 ≤ sip.status
    · cases ht : c.attemptOf orq with
      | some p => exact (processInviteResponse_outcome hs.next_pos ht hfinal _ _ _ nta).effect hs h hreached ht
      | none =>
        have honce : c.ReportsOnce (.inviteResponse orq sip nta) := by
          intro _ t a ht'
          rw [ht] at ht'
          cases ht'
        have hnone := h.attempt_of_none ht
        obtain ⟨reply, f, -, hf, -, hrecords⟩ := processInviteResponse_origination ht hfinal
          (c.calls.getAssociatedIncoming orq) (c.calls.legFromIncoming (c.calls.getAssociatedIncoming orq))
          (c.calls.legFromOutgoing orq) nta
        obtain ⟨-, htables⟩ := origination_tables ht hfinal (c.calls.getAssociatedIncoming orq)
          (c.calls.legFromIncoming (c.calls.getAssociatedIncoming orq)) (c.calls.legFromOutgoing orq) nta
        generalize c.processInviteResponse _ _ _ _ _ _ = c' at htables hrecords ⊢
        have hout := leavesInvites_destroyOutgoing hnone htables.2
        cases hp : c.calls.recordOf (c.calls.legFromIncoming (c.calls.getAssociatedIncoming orq)) with
        | none =>
          rw [hp] at hrecords
          exact .of_frame honce htables.1 hout hrecords
        | some p =>
          rw [hp, Option.elim_some] at hrecords
          refine .same ((c.records.cdrs.at? p).map f).toList honce htables.1 hout
            (hrecords ▸ Records.keeps_postCopy _ _ _) ?_ fun r hr => ?_
          · rw [hrecords]
            exact Records.posts_copy _ _ _
          · obtain ⟨cdr, -, rfl⟩ := Option.map_eq_some_iff.1 (Option.mem_toList.1 hr)
            rw [hf.type]
            exact CdrEvent.noConfusion
    · have honce : c.ReportsOnce (.inviteResponse orq sip nta) := by
        refine fun _ t a _ => ⟨fun h => by omega, fun h => ?_⟩
        rcases h.1.1 with hstatus | hstatus <;> omega
      obtain ⟨hcalls, hrecords⟩ := processInviteResponse_provisional (not_le.1 hfinal) c
        (c.calls.getAssociatedIncoming orq) orq
        (c.calls.legFromIncoming (c.calls.getAssociatedIncoming orq)) (c.calls.legFromOutgoing orq) nta
      rcases hcalls with heq | ⟨reply, -, heq⟩
      · exact .of_tables honce heq rfl rfl hrecords
      · exact .of_tables honce heq rfl rfl hrecords
  · obtain ⟨a, heq⟩ := inviteResponse_of_not_reached hreached sip nta
    rw [heq]
    exact .of_frame (fun hr => absurd hr hreached) rfl (fun _ _ _ => rfl) rfl

/-- What is posted where a record is changed and posted at once. -/
theorem posts_relabelled {b : Records} {cdrType : CdrEvent} {f : CdrInfo → CdrInfo} (hf : Relabels cdrType f)
    (hne : cdrType ≠ .terminationAttempt) (p : ℕ) : Records.Keeps b ((b.update p f).post p) ∧
      ∃ new, Records.Posts b ((b.update p f).post p) new ∧ ∀ r ∈ new, r.cdrType ≠ .terminationAttempt := by
  refine ⟨(Records.keeps_update hf.dlegCallId).trans (Records.keeps_post _ p), _, Records.posts_update b p f,
    fun r hr => ?_⟩
  obtain ⟨cdr, -, rfl⟩ := Option.map_eq_some_iff.1 (Option.mem_toList.1 hr)
  rwa [hf.type]

/-! ## CANCEL and requests inside of dialogs -/

/-- The A leg of a termination call has no dialog. -/
theorem AttemptInv.no_dialog (h : c.AttemptInv) (hs : c.calls.Typed) (hpair : (irq, orq) ∈ c.calls.transactions)
    (hleg : c.calls.legFromIncoming irq ≠ .null) (hne : c.calls.mapTerminationAttempts orq ≠ none) :
    c.calls.mapDialogInfo (c.calls.legFromIncoming irq) = none := by
  obtain ⟨o, ho, hcallback, -⟩ := h.live orq hne
  obtain ⟨a, ha, hcall⟩ := hs.invite irq orq hpair o ho hcallback
  obtain rfl : a = c.calls.legFromIncoming irq := Option.mem_unique ha (legFromIncoming_spec hleg).1
  refine hs.info_eq_none hcall.typed ?_
  rw [hcall.attempt hne]
  exact CallType.noConfusion

theorem effect_cancel (hs : c.calls.Typed) (h : c.AttemptInv) (hcrash : ¬(c.processCancel irq).Crashed) :
    Effect True [] c (c.processCancel irq) := by
  rcases processCancel_cases hcrash with ⟨-, hrecords, heq | ⟨-, -, heq⟩⟩ | ⟨hnull, hleg, heq, hcancel⟩
  · exact .of_tables trivial heq rfl rfl hrecords
  · exact .of_tables trivial heq (Calls.clearDialog_mapTerminationAttempts _ _)
      (Calls.clearDialog_outgoing _ _) hrecords
  · generalize horq : c.calls.getAssociatedOutgoing irq = orq at hnull heq hcancel
    have hpair : (irq, orq) ∈ c.calls.transactions := horq ▸ mem_of_getAssociatedOutgoing (horq ▸ hnull)
    generalize c.processCancel irq = c' at heq hcancel ⊢
    obtain ⟨-, hattempts, hout⟩ := cancelled_tables heq
    -- The INVITE of an origination call.
    have hsame : c.calls.mapTerminationAttempts orq = none → ∀ new,
        Records.Keeps c.records c'.records → Records.Posts c.records c'.records new →
        (∀ r ∈ new, r.cdrType ≠ .terminationAttempt) → Effect True [] c c' := by
      intro hnone new hkeeps hposts hnew
      refine .same new trivial ?_ (fun orq' _ ht' => ?_) hkeeps hposts hnew
      · rw [hattempts]
        exact Function.update_eq_self_iff.2 hnone.symm
      · have hne : orq' ≠ orq := by
          rintro rfl
          exact ht' hnone
        rw [hout]
        exact (Function.update_of_ne hne _ _).trans (Function.update_of_ne hne _ _)
    cases hcancel with
    | origination p f hp hf hrecords =>
      have hnone : c.calls.mapTerminationAttempts orq = none := by
        by_contra hne
        obtain ⟨d, hd, -⟩ := Option.bind_eq_some_iff.1 hp
        rw [h.no_dialog hs hpair hleg hne] at hd
        cases hd
      obtain ⟨hkeeps, new, hposts, hnew⟩ := posts_relabelled (b := c.records) hf CdrEvent.noConfusion p
      exact hsame hnone new (hrecords ▸ hkeeps) (hrecords ▸ hposts) hnew
    | termination t a f hinfo ht hf hrecords =>
      obtain ⟨ht', ha⟩ := attemptOf_eq_some ht
      obtain ⟨o, ho, -⟩ := h.live orq (ht' ▸ Option.some_ne_none t)
      obtain ⟨hkeeps, r, hposts, hr⟩ := report_spec h.own (h.lt orq t ht') (.refl _) ha hf
      rw [← hrecords] at hkeeps hposts
      refine .closed orq t [r] (iff_of_true trivial rfl) ht' hattempts ?_ ?_ hkeeps hposts
        fun r' hr' => List.mem_singleton.1 hr' ▸ hr
      · refine ended_of_destroyed (u := c.calls.destroyOutgoing orq)
          ⟨{ o with destroyed := o.destroyed + 1 }, ?_⟩ hout
        change Function.update c.calls.outgoing orq _ orq = _
        rw [Function.update_self, show c.calls.outgoing orq = some o from ho]
        rfl
      · exact leavesInvites_gone (fun orq' hne _ => Function.update_of_ne hne _ _) hout
    | unreported hinfo ht hrecords =>
      exact hsame (h.attempt_of_none ht) [] (hrecords ▸ .refl _) (Records.posts_nil (congrArg _ hrecords))
        fun r hr => absurd hr List.not_mem_nil

theorem effect_requestInsideDialog (hs : c.calls.Typed) {leg : Leg} {sip : Request} {nta : Creations}
    (hcrash : ¬(c.requestInsideDialog leg sip nta).Crashed) :
    Effect True [] c (c.requestInsideDialog leg sip nta) := by
  obtain ⟨other, u, -, hu, hcases⟩ := requestInsideDialog_cases hcrash
  generalize c.requestInsideDialog leg sip nta = c' at hcases ⊢
  have htables : u.mapTerminationAttempts = c.calls.mapTerminationAttempts ∧ u.outgoing = c.calls.outgoing ∧
      u.next = c.calls.next := by
    rcases hu with rfl | rfl <;> exact ⟨rfl, rfl, rfl⟩
  rcases hcases with ⟨-, ⟨i, status, n, -, -, -, heq⟩, hbye⟩ | ⟨-, hcalls, hrecords⟩
  · have hattempts : c'.calls.mapTerminationAttempts = c.calls.mapTerminationAttempts := by
      rw [heq, Calls.refuse, Calls.clearDialog_mapTerminationAttempts]
      split_ifs <;> exact htables.1
    have hout : c'.calls.outgoing = c.calls.outgoing := by
      rw [heq, Calls.refuse, Calls.clearDialog_outgoing]
      split_ifs <;> exact htables.2.1
    cases hbye with
    | unreported hbye hrecords => exact .of_frame trivial hattempts (fun orq _ _ => congrFun hout orq) hrecords
    | reported d released p f hnull hbye hp hf hrecords =>
      obtain ⟨hkeeps, new, hposts, hnew⟩ := posts_relabelled (b := c.records) hf CdrEvent.noConfusion p
      exact .of_calls trivial hattempts hout (hrecords ▸ hkeeps) (hrecords ▸ hposts) hnew
  · rcases hcalls with ⟨i, status, n, -, -, -, heq⟩ | ⟨orq, request, n, horq, -, heq⟩
    · exact .of_tables trivial heq htables.1 htables.2.1 hrecords
    · refine .of_frame trivial ?_ ?_ hrecords
      · rw [heq]
        exact htables.1
      · by_cases hnull : orq = .null
        · have hout : c'.calls.outgoing = c.calls.outgoing := by
            rw [heq, Calls.forward, if_pos hnull]
            exact htables.2.1
          exact fun orq _ _ => congrFun hout orq
        · have hout : c'.calls.outgoing = Function.update c.calls.outgoing orq
              (some ⟨other, .responseToRequestInsideDialog, request, 0⟩) := by
            rw [heq, Calls.forward, if_neg hnull, htables.2.1]
          exact leavesInvites_update hs _ (htables.2.2 ▸ (horq.resolve_left hnull).1.le) hout

theorem effect_responseInsideDialog (h : c.AttemptInv) {sip : Response}
    (horq : ∃ o ∈ c.calls.outgoing orq, o.callback = .responseToRequestInsideDialog) :
    Effect True [] c (c.processResponseInsideDialog orq sip) := by
  obtain ⟨hrecords, hcases⟩ := c.responseInsideDialog_cases orq sip
  have hnone := h.none_of_callback horq
  rcases hcases with ⟨a, heq⟩ | ⟨-, u, reply, hu, hcalls⟩
  · exact .of_tables trivial heq rfl rfl hrecords
  · have htables : u.mapTerminationAttempts = c.calls.mapTerminationAttempts ∧ u.outgoing = c.calls.outgoing := by
      rcases hu with rfl | ⟨a, rfl⟩ <;> exact ⟨rfl, rfl⟩
    rcases hcalls with heq | ⟨acks, heq⟩
    · exact .of_tables trivial heq htables.1 htables.2 hrecords
    · refine .of_frame trivial ((congrArg Calls.mapTerminationAttempts heq).trans htables.1)
        (leavesInvites_destroyOutgoing hnone ((congrArg Calls.outgoing heq).trans ?_)) hrecords
      change (u.destroyOutgoing orq).outgoing = _
      rw [Calls.destroyOutgoing, htables.2]
      rfl

/-- **What the events do to the attempts**, except the ones of the writer. -/
theorem effect_next (hs : c.calls.Typed) (h : c.AttemptInv) {e : ControllerEvent} (he : machine.enabled c e)
    (hwrite : ∀ connected, e ≠ .writeCdr connected) : Effect (c.ReportsOnce e) e.callId c (c.next e) := by
  obtain ⟨hpossible, hcrash⟩ := he
  cases e with
  | requestOutsideDialog sip uuid nta => exact effect_requestOutsideDialog hs sip uuid nta
  | inviteResponse orq sip nta => exact effect_inviteResponse hs h sip nta
  | ackOrCancel irq method =>
    change Effect True [] c (c.processAckOrCancel irq method)
    change ¬(c.processAckOrCancel irq method).Crashed at hcrash
    unfold processAckOrCancel at hcrash ⊢
    split_ifs at hcrash ⊢
    · exact effect_cancel hs h hcrash
    · exact .of_frame trivial rfl (fun _ _ _ => rfl) rfl
  | requestInsideDialog leg sip nta => exact effect_requestInsideDialog hs hcrash
  | responseInsideDialog orq sip =>
    obtain ⟨o, ho, hcallback, -⟩ := hpossible
    exact effect_responseInsideDialog h ⟨o, ho, hcallback⟩
  | sessionRefreshTimer leg =>
    obtain ⟨d, hd, -⟩ := hpossible
    obtain ⟨hrecords, other, u, -, hu, heq⟩ :=
      sessionRefreshTimer_cases (Option.ne_none_iff_exists'.2 ⟨d, hd⟩) hcrash
    refine .of_tables trivial heq ?_ ?_ hrecords
    · rw [Calls.clearDialog_mapTerminationAttempts]
      rcases hu with rfl | ⟨a, rfl⟩ <;> rfl
    · rw [Calls.clearDialog_outgoing]
      rcases hu with rfl | ⟨a, rfl⟩ <;> rfl
  | retransmittedResponse leg sip =>
    obtain ⟨hrecords, heq | heq⟩ := c.retransmittedResponse_cases leg sip
    · exact .of_tables trivial heq rfl rfl hrecords
    · exact .of_tables trivial heq rfl rfl hrecords
  | writeCdr connected => exact absurd rfl (hwrite connected)
  | clock now | monitor fsMonitor | resetTrunkStats => exact .of_frame trivial rfl (fun _ _ _ => rfl) rfl

/-- The attempts stay in order. -/
theorem Effect.attemptInv {Once : Prop} {callId : Bytes} (heffect : Effect Once callId c c')
    (hs : c.calls.Typed) (h : c.AttemptInv) (hcharged : c'.Charged) : c'.AttemptInv := by
  -- An INVITE that was there is not a new one.
  have hfresh : ∀ {orq' orqNew : Orq}, c.calls.next ≤ orqNew.address →
      c.calls.mapTerminationAttempts orq' ≠ none → orq' ≠ orqNew := by
    rintro orq' _ hle ht rfl
    exact absurd (hs.attempt_lt orq' ht) (not_lt.2 hle)
  cases heffect with
  | same new honce hattempts hout hkeeps hposts hnew =>
    refine ⟨hkeeps.own h.own, ?_, ?_, ?_, hcharged⟩ <;> rw [hattempts]
    · exact fun orq t ht => (h.lt orq t ht).trans_le hkeeps.length
    · exact h.inj
    · intro orq ht
      rw [hout orq (Option.some_ne_none orq).symm ht]
      exact h.live orq ht
  | opened orqNew honce horq hattempts hlive hout hkeeps hlength hdleg hposts =>
    refine ⟨hkeeps.own h.own, fun orq t ht => ?_, fun orq₁ orq₂ t h₁ h₂ => ?_, fun orq ht => ?_, hcharged⟩
    · rw [hattempts, Function.update_apply] at ht
      split_ifs at ht
      · exact Option.some_inj.1 ht ▸ hlength
      · exact (h.lt orq t ht).trans_le hkeeps.length
    · rw [hattempts, Function.update_apply] at h₁ h₂
      split_ifs at h₁ h₂ with heq₁ heq₂ heq₂
      · exact heq₁.trans heq₂.symm
      · exact absurd (h.lt orq₂ t h₂) (not_lt.2 (Option.some_inj.1 h₁).le)
      · exact absurd (h.lt orq₁ t h₁) (not_lt.2 (Option.some_inj.1 h₂).le)
      · exact h.inj orq₁ orq₂ t h₁ h₂
    · rw [hattempts, Function.update_apply] at ht
      split_ifs at ht with heq
      · exact heq ▸ hlive
      · rw [hout orq (Option.some_ne_none orq).symm ht]
        exact h.live orq ht
  | closed gone t new honce ht hattempts hended hout hkeeps hposts hnew =>
    refine ⟨hkeeps.own h.own, fun orq t ht => ?_, fun orq₁ orq₂ t h₁ h₂ => ?_, fun orq ht => ?_, hcharged⟩
    · rw [hattempts, Function.update_apply] at ht
      split_ifs at ht
      exact (h.lt orq t ht).trans_le hkeeps.length
    · rw [hattempts, Function.update_apply] at h₁ h₂
      split_ifs at h₁ h₂
      exact h.inj orq₁ orq₂ t h₁ h₂
    · rw [hattempts, Function.update_apply] at ht
      split_ifs at ht with heq
      · exact absurd rfl ht
      · rw [hout orq (fun hgone => heq (Option.some_inj.1 hgone).symm) ht]
        exact h.live orq ht
  | replaced gone orqNew t new honce ht horq hattempts hended hlive hout hown hlength hdleg hdlegs hposts hnew =>
    refine ⟨hown, fun orq t' ht' => ?_, fun orq₁ orq₂ t' h₁ h₂ => ?_, fun orq ht' => ?_, hcharged⟩
    · rw [hattempts, Function.update_apply, Function.update_apply] at ht'
      split_ifs at ht'
      · exact (Option.some_inj.1 ht' ▸ h.lt gone t ht).trans_le hlength
      · exact (h.lt orq t' ht').trans_le hlength
    · rw [hattempts, Function.update_apply, Function.update_apply] at h₁ h₂
      split_ifs at h₁ h₂ with heq₁ heq₂ hgone₂ hgone₁ heq₂ hgone₂
      · exact heq₁.trans heq₂.symm
      · obtain rfl := Option.some_inj.1 h₁
        exact absurd (h.inj orq₂ gone t h₂ ht) hgone₂
      · obtain rfl := Option.some_inj.1 h₂
        exact absurd (h.inj orq₁ gone t h₁ ht) hgone₁
      · exact h.inj orq₁ orq₂ t' h₁ h₂
    · rw [hattempts, Function.update_apply, Function.update_apply] at ht'
      split_ifs at ht' with heq hgone
      · exact heq ▸ hlive
      · exact absurd rfl ht'
      · rw [hout orq (fun hgone' => hgone (Option.some_inj.1 hgone').symm) ht']
        exact h.live orq ht'

theorem attemptInv_next (hs : c.calls.Typed) (h : c.AttemptInv) {e : ControllerEvent} (he : machine.enabled c e) :
    (c.next e).AttemptInv := by
  by_cases hwrite : ∃ connected, e = .writeCdr connected
  · obtain ⟨connected, rfl⟩ := hwrite
    exact ⟨⟨h.own.lt, h.own.inj⟩, h.lt, h.inj, h.live, h.charged⟩
  · have heffect := effect_next hs h he fun connected heq => hwrite ⟨connected, heq⟩
    exact heffect.attemptInv hs h (charged_next hs.next_pos h.charged he)

theorem Initial.attemptInv (hc : c.Initial) : c.AttemptInv := by
  have hmap : c.calls.mapTerminationAttempts = fun _ => none := congrArg Calls.mapTerminationAttempts hc.calls
  have hnone : ∀ (orq : Orq) (t : ℕ), c.calls.mapTerminationAttempts orq ≠ some t := by
    intro orq t ht
    rw [hmap] at ht
    cases ht
  have hattempts : ∀ (t : ℕ) (a : TerminationAttempt), c.records.attempts[t]? ≠ some a := by
    intro t a ha
    rw [show c.records.attempts = [] from hc.attempts] at ha
    cases ha
  refine ⟨⟨?_, ?_⟩, ?_, ?_, ?_, hc.charged⟩
  · exact fun t a ha => absurd ha (hattempts t a)
  · exact fun t _ a _ ha => absurd ha (hattempts t a)
  · exact fun orq t ht => absurd ht (hnone orq t)
  · exact fun orq _ t ht => absurd ht (hnone orq t)
  · intro orq hne
    rw [hmap] at hne
    exact absurd rfl hne

/-- The attempts are in order in all runs. -/
theorem attemptInv_of_reachable (hc : machine.Reachable c) : c.AttemptInv := by
  have hinv : c.calls.Typed ∧ c.AttemptInv := by
    refine hc.invariant (I := fun c => c.calls.Typed ∧ c.AttemptInv) ?_ ?_
    · exact fun c hc => ⟨hc.calls ▸ Calls.typed_empty, hc.attemptInv⟩
    · exact fun c e h he => ⟨typed_next h.1 he, attemptInv_next h.1 h.2 he⟩
  exact hinv.2

end

end Controller

/-! ## What is over stays over -/

theorem CallStep.destroyed {granted calm : Prop} {s s' : Calls} (h : CallStep granted calm s s') :
    s.next ≤ s'.next ∧ ∀ orq : Orq, orq.address < s.next → (∃ o ∈ s.outgoing orq, o.destroyed ≠ 0) →
      ∃ o ∈ s'.outgoing orq, o.destroyed ≠ 0 := by
  have hdestroy : ∀ (u : Calls) (gone orq : Orq), (∃ o ∈ u.outgoing orq, o.destroyed ≠ 0) →
      ∃ o ∈ (u.destroyOutgoing gone).outgoing orq, o.destroyed ≠ 0 := by
    rintro u gone orq ⟨o, ho, hne⟩
    change ∃ o ∈ Function.update u.outgoing gone _ orq, _
    by_cases heq : orq = gone
    · subst heq
      refine ⟨{ o with destroyed := o.destroyed + 1 }, ?_, Nat.succ_ne_zero _⟩
      rw [Function.update_self, show u.outgoing orq = some o from ho]
      rfl
    · rw [Function.update_of_ne heq]
      exact ⟨o, ho, hne⟩
  have hnew : ∀ (orqNew orq : Orq) (o : Outgoing), s.next ≤ orqNew.address → orq.address < s.next →
      Function.update s.outgoing orqNew (some o) orq = s.outgoing orq := by
    intro orqNew orq o hle hlt
    refine Function.update_of_ne ?_ _ _
    rintro rfl
    exact absurd hlt (not_lt.2 hle)
  cases h with
  | sent | assertion | endIterator | updateDialogInfo | eraseAttempt | relay | cancelLate =>
    exact ⟨le_rfl, fun _ _ h => h⟩
  | receive leg => exact ⟨Nat.le_succ _, fun _ _ h => h⟩
  | advance n hn => exact ⟨hn, fun _ _ h => h⟩
  | refuse i status n hn hstatus => exact ⟨hn.le, fun _ _ h => h⟩
  | openCall callType aLeg bLeg orqNew request info t n hinfo htype ha hgranted hb horq hn =>
    refine ⟨(hb.trans (horq.trans hn)).le, fun orq hlt h => ?_⟩
    change ∃ o ∈ Function.update s.outgoing orqNew _ orq, _
    rwa [hnew orqNew orq _ (hb.trans horq).le hlt]
  | forward leg other orqNew request n hleg hother hnull horq hgranted hn =>
    refine ⟨hn.le, fun orq hlt h => ?_⟩
    change ∃ o ∈ (if orqNew = .null then s.outgoing else Function.update s.outgoing orqNew _) orq, _
    split_ifs with hnull'
    · exact h
    · rwa [hnew orqNew orq _ (horq.resolve_left hnull').1.le hlt]
  | settle irq gone reply acks hr hstatus =>
    exact ⟨le_rfl, fun orq _ h => hdestroy s gone orq h⟩
  | cancel irq gone hpair hleg =>
    exact ⟨le_rfl, fun orq _ h => hdestroy (s.destroyOutgoing gone) gone orq (hdestroy s gone orq h)⟩
  | clearDialog leg hleg hcalm =>
    rw [Calls.clearDialog_next, Calls.clearDialog_outgoing]
    exact ⟨le_rfl, fun _ _ h => h⟩
  | replaceAttempt irq gone orqNew bLeg bLegNew request t n hr hleg hlive hinvite ht hcalm hb horq hn =>
    rw [Calls.replaceAttempt_next, Calls.replaceAttempt_outgoing]
    refine ⟨((hb.trans_lt horq).trans hn).le, fun orq hlt h => hdestroy _ gone orq ?_⟩
    change ∃ o ∈ Function.update s.outgoing orqNew _ orq, _
    rwa [hnew orqNew orq _ (hb.trans_lt horq).le hlt]

theorem CallSteps.destroyed {granted calm : Prop} {s s' : Calls} (h : CallSteps granted calm s s') :
    s.next ≤ s'.next ∧ ∀ orq : Orq, orq.address < s.next → (∃ o ∈ s.outgoing orq, o.destroyed ≠ 0) →
      ∃ o ∈ s'.outgoing orq, o.destroyed ≠ 0 := by
  induction h with
  | refl => exact ⟨le_rfl, fun _ _ h => h⟩
  | tail _ hstep ih =>
    obtain ⟨hnext, hd⟩ := CallStep.destroyed hstep
    exact ⟨ih.1.trans hnext, fun orq hlt h => hd orq (hlt.trans_le ih.1) (ih.2 orq hlt h)⟩

/-! ## The reports of a run -/

/-- The number of `termination_attempt` records about a D leg. -/
def reportsAbout (l : List CdrInfo) (callId : Bytes) : ℕ :=
  l.countP fun r => r.cdrType = .terminationAttempt ∧ r.dlegCallId = callId

/-- The controller, with what the writer took from its queue, and the Call-IDs of the D legs of
    all INVITEs of `generateTerminationRequest`. -/
structure Reporting where
  controller : Controller
  taken : List CdrInfo := []
  invited : Orq → Option Bytes := fun _ => none

namespace Reporting

/-- All records that were posted, in the order they were. -/
def posted (x : Reporting) : List CdrInfo := x.taken ++ x.controller.queued

/-- There is exactly one report about each INVITE that is over. -/
def Settled (x : Reporting) : Prop :=
  ∀ orq callId, x.invited orq = some callId → x.controller.Ended orq → reportsAbout x.posted callId = 1

/-- An event; a client transaction with an attempt that was not there before is a new INVITE. -/
def next (x : Reporting) (e : ControllerEvent) : Reporting where
  controller := x.controller.next e
  taken := x.taken ++ x.controller.takes e
  invited orq :=
    if x.controller.calls.outgoing orq |>.isNone then
      if (x.controller.next e).calls.mapTerminationAttempts orq |>.isSome then some e.callId
      else x.invited orq
    else x.invited orq

/-- The runs with a writer; nta gives no two legs the same Call-ID. -/
def machine : Machine Reporting ControllerEvent where
  init := { x | x.controller.Initial ∧ x.controller.cdrWriter ≠ none ∧ x.taken = [] ∧
    x.invited = fun _ => none }
  enabled x e := Controller.machine.enabled x.controller e ∧
    ∀ orq orq' callId, (x.next e).invited orq = some callId → (x.next e).invited orq' = some callId →
      orq = orq'
  next := next

/-- The INVITEs and the reports about them. -/
def docket (x : Reporting) : Docket Orq Bytes where
  given := x.invited
  pending orq := (x.controller.calls.mapTerminationAttempts orq).bind x.controller.records.dleg
  reports := reportsAbout x.posted

/-- What holds in every run: an INVITE whose attempt is not in the table any more is over. -/
structure Inv (x : Reporting) : Prop where
  typed : x.controller.calls.Typed
  attempts : x.controller.AttemptInv
  writer : x.controller.records.posted ≠ none
  ended : ∀ orq, x.invited orq ≠ none → x.controller.calls.mapTerminationAttempts orq = none →
    x.controller.Ended orq
  docket : x.docket.Valid

section

variable {x : Reporting} {e : ControllerEvent} {orq : Orq}

theorem Inv.pending_eq_none_iff (h : x.Inv) :
    x.docket.pending orq = none ↔ x.controller.calls.mapTerminationAttempts orq = none := by
  change (x.controller.calls.mapTerminationAttempts orq).bind _ = none ↔ _
  cases ht : x.controller.calls.mapTerminationAttempts orq with
  | none => simp
  | some t =>
    obtain ⟨id, hid⟩ := h.attempts.own.exists_dleg (h.attempts.lt orq t ht)
    simp [hid]

/-- An INVITE that has an attempt is not over. -/
theorem Inv.not_ended (h : x.Inv) (ht : x.controller.calls.mapTerminationAttempts orq ≠ none) :
    ¬x.controller.Ended orq := by
  rintro ⟨o, ho, hne⟩
  obtain ⟨o', ho', -, hzero⟩ := h.attempts.live orq ht
  obtain rfl : o = o' := Option.mem_unique ho ho'
  exact hne hzero

/-- The property is that of the docket. -/
theorem Inv.settled_iff_docket (h : x.Inv) : x.Settled ↔ x.docket.Settled := by
  refine forall_congr' fun orq => forall_congr' fun callId => imp_congr_right fun hgiven => imp_congr_left ?_
  rw [h.pending_eq_none_iff]
  constructor
  · intro hended
    by_contra hne
    exact h.not_ended hne hended
  · exact h.ended orq (by rw [hgiven]; exact Option.some_ne_none _)

theorem Inv.outgoing_ne_none (h : x.Inv) (hgiven : x.invited orq ≠ none) :
    x.controller.calls.outgoing orq ≠ none := by
  by_cases ht : x.controller.calls.mapTerminationAttempts orq = none
  · obtain ⟨o, ho, -⟩ := h.ended orq hgiven ht
    exact Option.ne_none_iff_exists'.2 ⟨o, ho⟩
  · obtain ⟨o, ho, -⟩ := h.attempts.live orq ht
    exact Option.ne_none_iff_exists'.2 ⟨o, ho⟩

/-- Only a new INVITE gets a Call-ID. -/
theorem invited_next_of_old (h : x.Inv)
    (hold : (x.controller.next e).calls.mapTerminationAttempts orq ≠ none →
      x.controller.calls.mapTerminationAttempts orq ≠ none) : (x.next e).invited orq = x.invited orq := by
  change (if _ then _ else _ : Option Bytes) = _
  split_ifs with hnone hsome
  · obtain ⟨o, ho, -⟩ := h.attempts.live orq (hold (Option.isSome_iff_ne_none.1 hsome))
    rw [show x.controller.calls.outgoing orq = some o from ho] at hnone
    cases hnone
  · rfl
  · rfl

theorem invited_next_of_new (hs : x.controller.calls.Typed) (horq : x.controller.calls.next ≤ orq.address)
    (ht : (x.controller.next e).calls.mapTerminationAttempts orq ≠ none) :
    (x.next e).invited orq = some e.callId := by
  have hnone : x.controller.calls.outgoing orq = none :=
    Option.eq_none_iff_forall_not_mem.2 fun o ho => absurd (hs.outgoing_lt orq o ho).1 (not_lt.2 horq)
  change (if _ then _ else _ : Option Bytes) = _
  rw [if_pos (by rw [hnone]; rfl), if_pos (Option.isSome_iff_ne_none.2 ht)]

theorem posted_next (h : x.Inv) {new : List CdrInfo} (hwrite : ∀ connected, e ≠ .writeCdr connected)
    (hposts : Records.Posts x.controller.records (x.controller.next e).records new) :
    (x.next e).posted = x.posted ++ new := by
  change (x.taken ++ x.controller.takes e) ++ (x.controller.next e).queued = (x.taken ++ x.controller.queued) ++ new
  rw [Controller.takes_of_ne hwrite, (Controller.queued_of_posts h.writer hposts).2, List.append_nil,
    List.append_assoc]

/-- What the writer does. -/
theorem posted_writeCdr (x : Reporting) (connected : Bool) : (x.next (.writeCdr connected)).posted = x.posted := by
  change (x.taken ++ x.controller.takes _) ++ (x.controller.next _).queued = _
  rw [List.append_assoc, Controller.takes_append_queued]
  rfl

theorem reportsAbout_append (l new : List CdrInfo) (callId : Bytes) :
    reportsAbout (l ++ new) callId = reportsAbout l callId + reportsAbout new callId := List.countP_append

theorem reportsAbout_of_other {new : List CdrInfo} (hnew : ∀ r ∈ new, r.cdrType ≠ .terminationAttempt)
    (callId : Bytes) : reportsAbout new callId = 0 :=
  List.countP_eq_zero.2 fun r hr => by simp [hnew r hr]

/-- All reports are about the same D leg. -/
theorem reportsAbout_of_same {new : List CdrInfo} {id : Bytes}
    (hnew : ∀ r ∈ new, r.cdrType = .terminationAttempt ∧ r.dlegCallId = id) (callId : Bytes) :
    reportsAbout new callId = if callId = id then new.length else 0 := by
  split_ifs with heq
  · exact List.countP_eq_length.2 fun r hr => by simp [hnew r hr, heq]
  · refine List.countP_eq_zero.2 fun r hr => ?_
    simp [hnew r hr, Ne.symm heq]

/-! ## One step -/

/-- The docket after an event, from what becomes of its parts. -/
theorem docket_next {d : Docket Orq Bytes} (hgiven : ∀ orq, (x.next e).invited orq = d.given orq)
    (hpending : ∀ orq, ((x.controller.next e).calls.mapTerminationAttempts orq).bind
      (x.controller.next e).records.dleg = d.pending orq)
    (hreports : ∀ callId, reportsAbout (x.next e).posted callId = d.reports callId) : (x.next e).docket = d :=
  Docket.ext (funext hgiven) (funext hpending) (funext hreports)

/-- The Call-IDs of the INVITEs that are left alone. -/
theorem Inv.pending_of_keeps (h : x.Inv) {b : Records} (hkeeps : Records.Keeps x.controller.records b) (orq : Orq) :
    (x.controller.calls.mapTerminationAttempts orq).bind b.dleg = x.docket.pending orq := by
  change _ = (x.controller.calls.mapTerminationAttempts orq).bind _
  cases ht : x.controller.calls.mapTerminationAttempts orq with
  | none => rfl
  | some t => exact hkeeps.dleg h.attempts.own t (h.attempts.lt orq t ht)

theorem pending_of_attempt {t : ℕ} {id : Bytes}
    (ht : x.controller.calls.mapTerminationAttempts orq = some t)
    (hid : x.controller.records.dleg t = some id) : x.docket.pending orq = some id := by
  change (x.controller.calls.mapTerminationAttempts orq).bind _ = _
  rw [ht, Option.bind_some, hid]

/-- A new INVITE, and its Call-ID, were not there before. -/
theorem Inv.given_of_new (h : x.Inv) (he : machine.enabled x e)
    (horq : x.controller.calls.next ≤ orq.address)
    (ht : (x.controller.next e).calls.mapTerminationAttempts orq ≠ none)
    (hold : ∀ orq' ≠ orq, (x.next e).invited orq' = x.invited orq') :
    x.invited orq = none ∧ ∀ orq', x.invited orq' ≠ some e.callId := by
  have hnone : x.invited orq = none := by
    by_contra hne
    obtain ⟨o, ho⟩ := Option.ne_none_iff_exists'.1 (h.outgoing_ne_none hne)
    exact absurd (h.typed.outgoing_lt orq o ho).1 (not_lt.2 horq)
  refine ⟨hnone, fun orq' hgiven => ?_⟩
  have hne : orq' ≠ orq := by
    rintro rfl
    rw [hnone] at hgiven
    cases hgiven
  exact hne (he.2 orq' orq e.callId ((hold orq' hne).trans hgiven) (invited_next_of_new h.typed horq ht))

/-- The reports about an INVITE that is over. -/
theorem reports_of_gone (h : x.Inv) (hwrite : ∀ connected, e ≠ .writeCdr connected) (gone : Orq) {t : ℕ}
    {id : Bytes} {new : List CdrInfo} (hid : x.controller.records.dleg t = some id)
    (hposts : Records.Posts x.controller.records (x.controller.next e).records new)
    (hnew : ∀ r ∈ new, r.cdrType = .terminationAttempt ∧
      x.controller.records.dleg t = some r.dlegCallId) (callId : Bytes) :
    reportsAbout (x.next e).posted callId = (x.docket.close gone id new.length).reports callId := by
  have hnew' : ∀ r ∈ new, r.cdrType = .terminationAttempt ∧ r.dlegCallId = id := fun r hr =>
    ⟨(hnew r hr).1, Option.some_inj.1 ((hnew r hr).2.symm.trans hid)⟩
  rw [posted_next h hwrite hposts, reportsAbout_append, reportsAbout_of_same hnew', Docket.close_reports]
  rfl

/-- **Every event is a step of the docket.** -/
theorem Inv.step (h : x.Inv) (he : machine.enabled x e) (hwrite : ∀ connected, e ≠ .writeCdr connected) :
    Docket.Step (x.controller.ReportsOnce e) x.docket (x.next e).docket := by
  cases Controller.effect_next h.typed h.attempts he.1 hwrite with
  | same new honce hattempts hout hkeeps hposts hnew =>
    have hsame : (x.next e).docket = x.docket := by
      refine docket_next (fun orq => invited_next_of_old h (by rw [hattempts]; exact id))
        (fun orq => ?_) fun callId => ?_
      · rw [hattempts]
        exact h.pending_of_keeps hkeeps orq
      · rw [posted_next h hwrite hposts, reportsAbout_append, reportsAbout_of_other hnew]
        rfl
    rw [hsame]
    exact .same honce
  | opened orqNew honce horq hattempts hlive hout hkeeps hlength hdleg hposts =>
    have ht : (x.controller.next e).calls.mapTerminationAttempts orqNew ≠ none := by
      rw [hattempts, Function.update_self]
      exact Option.some_ne_none _
    have hold : ∀ orq ≠ orqNew, (x.next e).invited orq = x.invited orq := fun orq hne =>
      invited_next_of_old h (by rw [hattempts, Function.update_of_ne hne]; exact id)
    obtain ⟨hnone, hfresh⟩ := h.given_of_new he horq ht hold
    have hopened : (x.next e).docket = x.docket.enter orqNew e.callId := by
      refine docket_next (fun orq => ?_) (fun orq => ?_) fun callId => ?_
      · rw [Docket.enter_given]
        split_ifs with heq
        · rw [heq, invited_next_of_new h.typed horq ht]
        · exact hold orq heq
      · rw [Docket.enter_pending, hattempts, Function.update_apply]
        split_ifs
        · exact hdleg
        · exact h.pending_of_keeps hkeeps orq
      · rw [posted_next h hwrite hposts, List.append_nil]
        rfl
    rw [hopened]
    exact .opened orqNew e.callId honce hnone hfresh
  | closed gone t new honce ht hattempts hended hout hkeeps hposts hnew =>
    obtain ⟨id, hid⟩ := h.attempts.own.exists_dleg (h.attempts.lt gone t ht)
    have hclosed : (x.next e).docket = x.docket.close gone id new.length := by
      refine docket_next (fun orq => invited_next_of_old h fun hne => ?_) (fun orq => ?_)
        (reports_of_gone h hwrite gone hid hposts hnew)
      · rw [hattempts, Function.update_apply] at hne
        split_ifs at hne
        · exact absurd rfl hne
        · exact hne
      · rw [Docket.close_pending, hattempts, Function.update_apply]
        split_ifs
        · rfl
        · exact h.pending_of_keeps hkeeps orq
    rw [hclosed]
    exact .closed gone id new.length (pending_of_attempt ht hid) honce
  | replaced gone orqNew t new honce ht horq hattempts hended hlive hout hown hlength hdleg hdlegs hposts hnew =>
    obtain ⟨id, hid⟩ := h.attempts.own.exists_dleg (h.attempts.lt gone t ht)
    have ht' : (x.controller.next e).calls.mapTerminationAttempts orqNew ≠ none := by
      rw [hattempts, Function.update_self]
      exact Option.some_ne_none _
    have hold : ∀ orq ≠ orqNew, (x.next e).invited orq = x.invited orq := by
      refine fun orq hne => invited_next_of_old h fun hne' => ?_
      rw [hattempts, Function.update_of_ne hne, Function.update_apply] at hne'
      split_ifs at hne'
      · exact absurd rfl hne'
      · exact hne'
    obtain ⟨hnone, hfresh⟩ := h.given_of_new he horq ht' hold
    have hreplaced : (x.next e).docket = (x.docket.close gone id new.length).enter orqNew e.callId := by
      refine docket_next (fun orq => ?_) (fun orq => ?_) (reports_of_gone h hwrite gone hid hposts hnew)
      · rw [Docket.enter_given]
        split_ifs with heq
        · rw [heq, invited_next_of_new h.typed horq ht']
        · exact hold orq heq
      · rw [Docket.enter_pending, Docket.close_pending, hattempts, Function.update_apply, Function.update_apply]
        split_ifs with heq hgone
        · exact hdleg
        · rfl
        · -- The record of another attempt is another one.
          change _ = (x.controller.calls.mapTerminationAttempts orq).bind _
          cases ht₁ : x.controller.calls.mapTerminationAttempts orq with
          | none => rfl
          | some t₁ =>
            refine hdlegs t₁ (h.attempts.lt orq t₁ ht₁) fun heq₁ => hgone ?_
            exact h.attempts.inj orq gone t (heq₁ ▸ ht₁) ht
    rw [hreplaced]
    exact .replaced gone id new.length orqNew e.callId (pending_of_attempt ht hid) honce hnone hfresh

/-- What the writer does changes nothing here. -/
theorem docket_writeCdr (h : x.Inv) (connected : Bool) : (x.next (.writeCdr connected)).docket = x.docket := by
  refine docket_next (fun orq => invited_next_of_old h id) (fun orq => ?_) fun callId => ?_
  · rw [Controller.records_writeCdr]
    rfl
  · rw [posted_writeCdr]
    rfl

theorem Inv.docket_step (h : x.Inv) (he : machine.enabled x e) :
    Docket.Step (x.controller.ReportsOnce e) x.docket (x.next e).docket := by
  by_cases hwrite : ∃ connected, e = .writeCdr connected
  · obtain ⟨connected, rfl⟩ := hwrite
    rw [docket_writeCdr h]
    exact .same trivial
  · exact h.step he fun connected heq => hwrite ⟨connected, heq⟩

/-! ## Runs -/

/-- What is over with an event ended in it. -/
theorem Inv.ended_next (h : x.Inv) (he : Controller.machine.enabled x.controller e)
    (hgiven : (x.next e).invited orq ≠ none)
    (ht : (x.controller.next e).calls.mapTerminationAttempts orq = none) : (x.controller.next e).Ended orq := by
  by_cases hold : x.controller.calls.mapTerminationAttempts orq = none
  · -- It was over before.
    rw [invited_next_of_old h (fun hne => absurd ht hne)] at hgiven
    obtain ⟨o, ho, hne⟩ := h.ended orq hgiven hold
    exact (CallSteps.destroyed (Controller.callSteps_next h.typed.next_pos he.1)).2 orq
      (h.typed.outgoing_lt orq o ho).1 ⟨o, ho, hne⟩
  · have hwrite : ∀ connected, e ≠ .writeCdr connected := by
      rintro connected rfl
      exact hold ht
    cases Controller.effect_next h.typed h.attempts he hwrite with
    | same new honce hattempts hout hkeeps hposts hnew => exact absurd (hattempts ▸ ht) hold
    | opened orqNew honce horq hattempts hlive hout hkeeps hlength hdleg hposts =>
      rw [hattempts, Function.update_apply] at ht
      split_ifs at ht
      exact absurd ht hold
    | closed gone t new honce ht' hattempts hended hout hkeeps hposts hnew =>
      rw [hattempts, Function.update_apply] at ht
      split_ifs at ht with heq
      · exact heq ▸ hended
      · exact absurd ht hold
    | replaced gone orqNew t new honce ht' horq hattempts hended hlive hout hown hlength hdleg hdlegs hposts hnew =>
      rw [hattempts, Function.update_apply, Function.update_apply] at ht
      split_ifs at ht with heq hgone
      · exact hgone ▸ hended
      · exact absurd ht hold

/-- The attempts, and that there is a writer. -/
theorem Inv.attempts_next (h : x.Inv) (he : Controller.machine.enabled x.controller e) :
    (x.controller.next e).AttemptInv ∧ (x.controller.next e).records.posted ≠ none := by
  refine ⟨Controller.attemptInv_next h.typed h.attempts he, ?_⟩
  by_cases hwrite : ∃ connected, e = .writeCdr connected
  · obtain ⟨connected, rfl⟩ := hwrite
    rw [Controller.records_writeCdr]
    exact fun hnone => h.writer (Option.map_eq_none_iff.1 hnone)
  · have heffect := Controller.effect_next h.typed h.attempts he fun connected heq => hwrite ⟨connected, heq⟩
    have hposts : ∃ new, Records.Posts x.controller.records (x.controller.next e).records new := by
      cases heffect with
      | same new honce hattempts hout hkeeps hposts hnew => exact ⟨new, hposts⟩
      | opened orqNew honce horq hattempts hlive hout hkeeps hlength hdleg hposts => exact ⟨[], hposts⟩
      | closed gone t new honce ht hattempts hended hout hkeeps hposts hnew => exact ⟨new, hposts⟩
      | replaced gone orqNew t new honce ht horq hattempts hended hlive hout hown hlength hdleg hdlegs hposts hnew =>
        exact ⟨new, hposts⟩
    obtain ⟨new, hposts⟩ := hposts
    exact (Controller.queued_of_posts h.writer hposts).1

theorem Inv.next (h : x.Inv) (he : machine.enabled x e) : (x.next e).Inv := by
  obtain ⟨hattempts, hwriter⟩ := h.attempts_next he.1
  exact ⟨Controller.typed_next h.typed he.1, hattempts, hwriter, fun orq => h.ended_next he.1,
    (h.docket_step he).valid h.docket⟩

theorem posted_init (hx : x ∈ machine.init) : x.posted = [] := by
  obtain ⟨hinit, -, htaken, -⟩ := hx
  unfold posted Controller.queued Controller.records
  rw [htaken]
  cases hw : x.controller.cdrWriter with
  | none => rfl
  | some w =>
    simp [(hinit.cdrWriter w hw).1]

theorem inv_init (hx : x ∈ machine.init) : x.Inv := by
  have hposted := posted_init hx
  obtain ⟨hinit, hwriter, -, hinvited⟩ := hx
  have hmap : x.controller.calls.mapTerminationAttempts = fun _ => none :=
    congrArg Calls.mapTerminationAttempts hinit.calls
  refine ⟨hinit.calls ▸ Calls.typed_empty, hinit.attemptInv, ?_, ?_, ?_, ?_, ?_, ?_⟩
  · obtain ⟨w, hw⟩ := Option.ne_none_iff_exists'.1 hwriter
    change x.controller.cdrWriter.map _ ≠ none
    rw [hw]
    exact Option.some_ne_none _
  · intro orq hne
    rw [hinvited] at hne
    exact absurd rfl hne
  · intro orq id hp
    change (x.controller.calls.mapTerminationAttempts orq).bind _ = _ at hp
    rw [hmap] at hp
    cases hp
  · intro orq id hp
    change (x.controller.calls.mapTerminationAttempts orq).bind _ = _ at hp
    rw [hmap] at hp
    cases hp
  · intro id hne
    change reportsAbout x.posted id ≠ 0 at hne
    rw [hposted] at hne
    exact absurd rfl hne
  · intro orq orq' id hgiven
    change x.invited orq = _ at hgiven
    rw [hinvited] at hgiven
    cases hgiven

/-- No two INVITEs have the same Call-ID. -/
def Distinct (x : Reporting) : Prop :=
  ∀ n < x.controller.calls.next, ∀ n' < n, x.invited ⟨n⟩ = x.invited ⟨n'⟩ → x.invited ⟨n⟩ = none

instance (x : Reporting) : Decidable x.Distinct := Nat.decidableBallLT _ _

/-- Only a transaction that was created has a Call-ID, so they can be compared one by one. -/
theorem Inv.enabled_of_distinct (h : x.Inv) (he : Controller.machine.enabled x.controller e)
    (hdistinct : (x.next e).Distinct) : machine.enabled x e := by
  have hlt : ∀ orq callId, (x.next e).invited orq = some callId →
      orq.address < (x.next e).controller.calls.next := by
    intro orq callId hinvited
    have hs := Controller.typed_next h.typed he
    by_cases ht : (x.controller.next e).calls.mapTerminationAttempts orq = none
    · obtain ⟨o, ho, -⟩ := h.ended_next he (hinvited ▸ Option.some_ne_none _) ht
      exact (hs.outgoing_lt orq o ho).1
    · exact hs.attempt_lt orq ht
  refine ⟨he, fun orq orq' callId hinvited hinvited' => ?_⟩
  have hle : ∀ {orq orq' : Orq}, (x.next e).invited orq = some callId →
      (x.next e).invited orq' = some callId → orq.address ≤ orq'.address := by
    intro orq orq' hinvited hinvited'
    by_contra hlt'
    have hnone := hdistinct orq.address (hlt orq _ hinvited) orq'.address (not_le.1 hlt')
      (hinvited.trans hinvited'.symm)
    exact Option.some_ne_none _ (hinvited.symm.trans hnone)
  exact congrArg Handle.mk (le_antisymm (hle hinvited hinvited') (hle hinvited' hinvited))

/-- The events of a run, as they can be checked. -/
theorem Inv.along_enabled {es : List ControllerEvent} (h : x.Inv) (hes : machine.Along (fun x e =>
      Controller.machine.enabled x.controller e ∧ (x.next e).Distinct) x es) :
    machine.Along machine.enabled x es := by
  induction es generalizing x with
  | nil => trivial
  | cons e es ih =>
    have he := h.enabled_of_distinct hes.1.1 hes.1.2
    exact ⟨he, ih (h.next he) hes.2⟩

/-- **One report for each attempt.** In a run with a writer, there is exactly one report about
    each INVITE that is over exactly as long as no redirect leads to another INVITE and no
    crankback fails to. -/
theorem settled_iff {es : List ControllerEvent} (hrun : machine.IsRun x es) :
    machine.Always Settled x es ↔ machine.Along (fun x e => x.controller.ReportsOnce e) x es := by
  have hinv := inv_init hrun.1
  refine Machine.always_iff_along (I := Inv) (fun x e h _ he _ => h.next he) (fun x e h hsettled he => ?_)
    hinv ?_ hrun.2
  · exact (h.next he).settled_iff_docket.trans
      ((h.docket_step he).settled_iff_once h.docket (h.settled_iff_docket.1 hsettled))
  · intro orq id hgiven
    rw [hrun.1.2.2.2] at hgiven
    cases hgiven

end

/-! ## An example -/

/-- The controller of the example, whose server is known to be one. -/
def exampleReporting : Reporting where
  controller := { Controller.exampleStart with
    fsMonitor := { Controller.exampleStart.fsMonitor with setServers := {['f']} } }

/-- The server makes a call. The INVITE for the carrier is `4`. -/
def exampleServerCall : ControllerEvent :=
  .requestOutsideDialog (Controller.serverInvite ['f']) [] { callId := ['d'] }

theorem exampleReporting_init : exampleReporting ∈ machine.init := by
  refine ⟨{ Controller.exampleStart_initial with }, ?_, rfl, rfl⟩
  exact Option.some_ne_none _

theorem exampleServerCall_enabled : machine.enabled exampleReporting exampleServerCall :=
  (inv_init exampleReporting_init).enabled_of_distinct (by decide +kernel) (by decide +kernel)

/-- The carrier refuses the call. -/
def exampleRefusal : ControllerEvent := .inviteResponse ⟨4⟩ { status := 486 } {}

/-- The carrier sends the call elsewhere. -/
def exampleRedirect : ControllerEvent :=
  .inviteResponse ⟨4⟩ { status := 302, sipContact := some { url := { user := some ['r'] } } } { callId := ['e'] }

/-- A call that is refused is reported once. -/
theorem settled_exampleRefusal :
    machine.IsRun exampleReporting [exampleServerCall, exampleRefusal] ∧
      machine.Along (fun x e => x.controller.ReportsOnce e) exampleReporting
        [exampleServerCall, exampleRefusal] ∧
      machine.Always Settled exampleReporting [exampleServerCall, exampleRefusal] := by
  have hrun : machine.IsRun exampleReporting [exampleServerCall, exampleRefusal] :=
    ⟨exampleReporting_init, (inv_init exampleReporting_init).along_enabled (by decide +kernel)⟩
  have honce : machine.Along (fun x e => x.controller.ReportsOnce e) exampleReporting
      [exampleServerCall, exampleRefusal] := by
    refine ⟨trivial, ?_, trivial⟩
    intro _ t a _
    exact ⟨fun h => absurd h.1 (by decide), fun h => h.1.1.elim (by decide) (by decide)⟩
  exact ⟨hrun, honce, (settled_iff hrun).2 honce⟩

/-- A redirect is not reported. -/
theorem exampleRedirect_unreported :
    machine.IsRun exampleReporting [exampleServerCall, exampleRedirect] ∧
      ¬machine.Always Settled exampleReporting [exampleServerCall, exampleRedirect] := by
  refine ⟨⟨exampleReporting_init, (inv_init exampleReporting_init).along_enabled (by decide +kernel)⟩, ?_⟩
  rintro ⟨-, -, hsettled⟩
  exact absurd (hsettled ⟨4⟩ ['d'] (by decide) ⟨_, rfl, by decide⟩) (by decide)

end Reporting

end Ssp
