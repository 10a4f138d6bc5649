import Ssp.Controller.AllOrNothing
import Ssp.Controller.Reports

/-!
# What an event does to the transactions

`m_transactions` and `m_mapTerminationAttempts` are changed by the same handlers, but each on
its own. `Turn` says for an event what becomes of both: nothing, a request is sent on and its
pair comes in, a pair is settled with a final response, the client transaction of a pair is
replaced by another one, or a pair is cancelled.
-/

namespace Ssp

namespace Calls

/-- There are the client transactions that were there, and those that are `new`. -/
def Creates (s s' : Calls) (new : Orq → Prop) : Prop :=
  ∀ orq, s'.outgoing orq ≠ none ↔ s.outgoing orq ≠ none ∨ new orq

/-- The tables become `pairs` and `attempts`, and the client transactions that are `new` come in. -/
structure Becomes (s s' : Calls) (pairs : Bimap Irq Orq) (attempts : Orq → Option ℕ) (new : Orq → Prop) :
    Prop where
  pairs : s'.transactions = pairs
  attempts : s'.mapTerminationAttempts = attempts
  creates : s.Creates s' new

section

variable {s s' : Calls} {orq : Orq}

theorem creates_of_eq (h : s'.outgoing = s.outgoing) : s.Creates s' fun _ => False := by
  intro orq
  rw [h, or_false]

theorem creates_of_update {o : Outgoing} (h : s'.outgoing = Function.update s.outgoing orq (some o)) :
    s.Creates s' (· = orq) := by
  intro orq'
  rw [h]
  by_cases heq : orq' = orq
  · subst heq
    simp
  · simp [heq]

theorem destroyOutgoing_ne_none (s : Calls) (orq orq' : Orq) :
    (s.destroyOutgoing orq).outgoing orq' ≠ none ↔ s.outgoing orq' ≠ none := by
  change Function.update s.outgoing orq _ orq' ≠ none ↔ _
  by_cases heq : orq' = orq
  · subst heq
    simp
  · rw [Function.update_of_ne heq]

theorem creates_of_destroyed (orq : Orq) (h : s'.outgoing = (s.destroyOutgoing orq).outgoing) :
    s.Creates s' fun _ => False := by
  intro orq'
  rw [h, destroyOutgoing_ne_none, or_false]

end

end Calls

namespace Controller

/-- An event that ends no pair of transactions: there is no final response to be passed on, and
    nothing to be cancelled. -/
def Idles (c : Controller) : ControllerEvent → Prop
  | .inviteResponse orq sip _ => ¬(c.Reached orq ∧ 200 ≤ sip.status)
  | .responseInsideDialog orq sip => ¬(c.calls.getAssociatedIncoming orq ≠ .null ∧ 200 ≤ sip.status)
  | .ackOrCancel irq method =>
    method = .cancel → c.calls.getAssociatedOutgoing irq = .null ∨ c.calls.legFromIncoming irq = .null
  | _ => True

/-- What becomes of the pairs of transactions and of the attempts. -/
inductive Turn (c c' : Controller) : ControllerEvent → Prop
  | idle {e : ControllerEvent} (hidle : c.Idles e)
      (h : c.calls.Becomes c'.calls c.calls.transactions c.calls.mapTerminationAttempts fun _ => False) :
      Turn c c' e
  | opened {sip : Request} {uuid : Bytes} {nta : Creations} (orq : Orq) (t : Option ℕ)
      (hinvite : sip.validateSipMessage = 0 ∧ sip.method = .invite)
      (ht : t ≠ none ↔ c.Terminates sip) (hcharged : c.Terminates sip → c.HasChargedRoute sip)
      (horq : c.calls.next < orq.address)
      (h : c.calls.Becomes c'.calls (c.calls.transactions.insert ⟨c.calls.next⟩ orq)
        (Function.update c.calls.mapTerminationAttempts orq t) (· = orq)) :
      Turn c c' (.requestOutsideDialog sip uuid nta)
  | forwarded {leg : Leg} {sip : Request} {nta : Creations} (orq : Orq)
      (hmethod : sip.method ≠ .bye ∧ sip.method ≠ .ack)
      (horq : orq = .null ∨ c.calls.next < orq.address)
      (h : c.calls.Becomes c'.calls (c.calls.transactions.insert ⟨c.calls.next⟩ orq)
        c.calls.mapTerminationAttempts fun orq' => orq' = orq ∧ orq ≠ .null) :
      Turn c c' (.requestInsideDialog leg sip nta)
  | answered {orq : Orq} {sip : Response} {nta : Creations} (hreached : c.Reached orq)
      (hfinal : 200 ≤ sip.status) (hretries : ¬c.Retries orq sip nta)
      (h : c.calls.Becomes c'.calls (c.calls.transactions.eraseRight orq)
        (Function.update c.calls.mapTerminationAttempts orq none) fun _ => False) :
      Turn c c' (.inviteResponse orq sip nta)
  | replaced {orq : Orq} {sip : Response} {nta : Creations} (orqNew : Orq) (t : ℕ)
      (hreached : c.Reached orq) (hfinal : 200 ≤ sip.status) (hretries : c.Retries orq sip nta)
      (ht : c.calls.mapTerminationAttempts orq = some t) (horq : c.calls.next < orqNew.address)
      (h : c.calls.Becomes c'.calls
        ((c.calls.transactions.eraseRight orq).insert (c.calls.getAssociatedIncoming orq) orqNew)
        (Function.update (Function.update c.calls.mapTerminationAttempts orq none) orqNew (some t))
        (· = orqNew)) :
      Turn c c' (.inviteResponse orq sip nta)
  | settled {orq : Orq} {sip : Response} (hirq : c.calls.getAssociatedIncoming orq ≠ .null)
      (hfinal : 200 ≤ sip.status)
      (h : c.calls.Becomes c'.calls (c.calls.transactions.eraseRight orq)
        (Function.update c.calls.mapTerminationAttempts orq none) fun _ => False) :
      Turn c c' (.responseInsideDialog orq sip)
  | cancelled {irq : Irq} (hnull : c.calls.getAssociatedOutgoing irq ≠ .null)
      (hleg : c.calls.legFromIncoming irq ≠ .null)
      (h : c.calls.Becomes c'.calls (c.calls.transactions.eraseRight (c.calls.getAssociatedOutgoing irq))
        (Function.update c.calls.mapTerminationAttempts (c.calls.getAssociatedOutgoing irq) none)
        fun _ => False) :
      Turn c c' (.ackOrCancel irq .cancel)

section

variable {c c' : Controller}

theorem Turn.idle_of_calls {e : ControllerEvent} {u : Calls} (hidle : c.Idles e) (hcalls : c'.calls = u)
    (hpairs : u.transactions = c.calls.transactions)
    (hattempts : u.mapTerminationAttempts = c.calls.mapTerminationAttempts)
    (hout : u.outgoing = c.calls.outgoing) : Turn c c' e := by
  subst hcalls
  exact .idle hidle ⟨hpairs, hattempts, Calls.creates_of_eq hout⟩

/-- A transaction that is there is not forgotten. -/
theorem Turn.outgoing_ne_none {e : ControllerEvent} (h : Turn c c' e) {orq : Orq}
    (hne : c.calls.outgoing orq ≠ none) : c'.calls.outgoing orq ≠ none := by
  obtain ⟨new, hcreates⟩ : ∃ new, c.calls.Creates c'.calls new := by
    cases h <;> exact ⟨_, Calls.Becomes.creates (by assumption)⟩
  exact (hcreates orq).2 (.inl hne)

/-- Only the tables matter. -/
theorem Turn.congr {c'' : Controller} {e : ControllerEvent} (h : Turn c c' e)
    (hpairs : c''.calls.transactions = c'.calls.transactions)
    (hattempts : c''.calls.mapTerminationAttempts = c'.calls.mapTerminationAttempts)
    (hout : c''.calls.outgoing = c'.calls.outgoing) : Turn c c'' e := by
  have hcongr : ∀ {pairs attempts new}, c.calls.Becomes c'.calls pairs attempts new →
      c.calls.Becomes c''.calls pairs attempts new := by
    intro pairs attempts new h
    refine ⟨hpairs.trans h.pairs, hattempts.trans h.attempts, fun orq => ?_⟩
    rw [hout]
    exact h.creates orq
  cases h with
  | idle hidle h => exact .idle hidle (hcongr h)
  | opened orq t hinvite ht hcharged horq h => exact .opened orq t hinvite ht hcharged horq (hcongr h)
  | forwarded orq hmethod horq h => exact .forwarded orq hmethod horq (hcongr h)
  | answered hreached hfinal hretries h => exact .answered hreached hfinal hretries (hcongr h)
  | replaced orqNew t hreached hfinal hretries ht horq h =>
    exact .replaced orqNew t hreached hfinal hretries ht horq (hcongr h)
  | settled hirq hfinal h => exact .settled hirq hfinal (hcongr h)
  | cancelled hnull hleg h => exact .cancelled hnull hleg (hcongr h)

/-! ## New requests -/

theorem legRecv_tables (s : Calls) (irq : Irq) (method : Method) (status : ℤ) :
    (s.legRecv irq method status).transactions = s.transactions ∧
      (s.legRecv irq method status).mapTerminationAttempts = s.mapTerminationAttempts ∧
      (s.legRecv irq method status).outgoing = s.outgoing := by
  unfold Calls.legRecv
  dsimp only
  split_ifs <;> exact ⟨rfl, rfl, rfl⟩

/-- The INVITE of a new call, of the type that its sender has. -/
theorem Handled.turn (hs : c.calls.Typed) {callType : CallType} {granted : Bool} {sent : Prop}
    {r : Controller × ℤ} (h : Handled c.calls callType granted sent r) {sip : Request} (uuid : Bytes)
    (nta : Creations) (hinvite : sip.validateSipMessage = 0 ∧ sip.method = .invite)
    (htype : callType = .termination ↔ c.Terminates sip) (hcharged : sent → c.Terminates sip → c.HasChargedRoute sip) :
    Turn c r.1 (.requestOutsideDialog sip uuid nta) := by
  cases h with
  | refused n incoming hstatus hsent hcalls => exact .idle_of_calls trivial hcalls rfl rfl rfl
  | opened aLeg bLeg orq request info t n hstatus hsent hf hgranted hcalls =>
    have hnone : c.calls.mapTerminationAttempts orq = none := by
      by_contra hne
      exact absurd (hs.attempt_lt orq hne) (not_lt.2 hf.orq_lt.le)
    -- Only a termination call has an attempt.
    refine .opened orq (if callType = .termination then some t else none) hinvite ?_ (hcharged hsent) hf.orq_lt
      ⟨congrArg Calls.transactions hcalls, ?_, Calls.creates_of_update (congrArg Calls.outgoing hcalls)⟩
    · rw [← htype, ne_eq, ite_eq_right_iff, Classical.not_imp]
      exact and_iff_left (Option.some_ne_none t)
    · rw [hcalls]
      change (if callType = .termination then _ else _) = _
      split_ifs
      · exact Calls.insertNew_of_none hnone t
      · exact (Function.update_eq_self_iff.2 hnone.symm).symm

/-- An INVITE, by the type of its call. -/
theorem turn_processInvite (hs : c.calls.Typed) {sip : Request}
    (hinvite : sip.validateSipMessage = 0 ∧ sip.method = .invite) (uuid : Bytes) (nta : Creations) :
    Turn c ((c.withCalls (c.calls.receive .null)).processInvite ⟨c.calls.next⟩ sip uuid nta).1
      (.requestOutsideDialog sip uuid nta) := by
  unfold processInvite
  dsimp only
  generalize hc₁ : (c.withCalls (c.calls.receive .null)).require .requestContactHost sip.contactHost?.isSome = c₁
  have hcalls : c₁.calls = c.calls.receive .null := by
    rw [← hc₁, require_calls]
    rfl
  have htype : c₁.determineCallType (sip.contactHost?.getD []) =
      c.determineCallType (sip.contactHost?.getD []) := by
    rw [← hc₁, determineCallType_require]
    rfl
  have hterminates : (c.determineCallType (sip.contactHost?.getD [])).1 = .termination ↔ c.Terminates sip :=
    ⟨fun h => ⟨hinvite.1, hinvite.2, h⟩, fun h => h.2.2⟩
  rw [htype]
  rcases hdetermine : c.determineCallType (sip.contactHost?.getD []) with ⟨_ | _ | _, carrier⟩ <;>
    rw [hdetermine] at hterminates
  · dsimp only
    split_ifs
    · exact .idle_of_calls trivial ((reject_calls _ _ _ _).trans ((originationCdr_calls _ _ _ _).trans hcalls))
        rfl rfl rfl
    · have hhandled := processOriginationRequest_handled hcalls sip carrier uuid nta
      have hturn := hhandled.turn hs uuid nta hinvite hterminates fun _ h => nomatch hterminates.2 h
      exact hturn.congr (by simp) (by simp) (by simp)
  · have hhandled := processTerminationRequest_handled hcalls sip nta
    have hcharged : c₁.HasChargedRoute sip → c.HasChargedRoute sip := by
      rw [← hc₁]
      unfold require
      split_ifs <;> exact id
    have hturn := hhandled.turn hs uuid nta hinvite hterminates fun hsent _ => hcharged hsent.1
    exact hturn.congr (by simp) (by simp) (by simp)
  · exact .idle_of_calls trivial ((reject_calls _ _ _ _).trans ((originationCdr_calls _ _ _ _).trans hcalls))
      rfl rfl rfl

theorem turn_requestOutsideDialog (hs : c.calls.Typed) (sip : Request) (uuid : Bytes) (nta : Creations) :
    Turn c (c.requestOutsideDialog sip uuid nta) (.requestOutsideDialog sip uuid nta) := by
  obtain ⟨hpairs, hattempts, hout⟩ := legRecv_tables
    ((c.withCalls (c.calls.receive .null)).processRequestOutsideDialog ⟨c.calls.next⟩ sip uuid nta).1.calls
    ⟨c.calls.next⟩ sip.method
    ((c.withCalls (c.calls.receive .null)).processRequestOutsideDialog ⟨c.calls.next⟩ sip uuid nta).2
  -- What nta does with the status at the end is about the server transaction only.
  refine Turn.congr ?_ hpairs hattempts hout
  unfold processRequestOutsideDialog
  by_cases hvalid : sip.validateSipMessage = 0
  · rw [if_neg (not_not.2 hvalid)]
    cases hmethod : sip.method with
    | invite => exact turn_processInvite hs ⟨hvalid, hmethod⟩ uuid nta
    | options =>
      dsimp only
      split_ifs
      · exact .idle_of_calls trivial rfl rfl rfl rfl
      · exact .idle_of_calls trivial (require_calls _ _ _) rfl rfl rfl
      · exact .idle_of_calls trivial (require_calls _ _ _) rfl rfl rfl
    | ack | bye | cancel | other name => exact .idle_of_calls trivial rfl rfl rfl rfl
  · rw [if_pos hvalid]
    exact .idle_of_calls trivial rfl rfl rfl rfl

/-! ## Responses -/

/-- Another INVITE is sent, where the attempt is known. -/
theorem retries_iff {orq : Orq} {t : ℕ} {a : TerminationAttempt} (ht : c.attemptOf orq = some (t, a))
    (sip : Response) (nta : Creations) : c.Retries orq sip nta ↔
      (300 ≤ sip.status ∧ sip.status ≤ 399 ∨ c.CranksBack a sip) ∧ nta.bLeg = true ∧ nta.orq = true := by
  obtain ⟨ht', ha⟩ := attemptOf_eq_some ht
  constructor
  · rintro ⟨t₁, a₁, ht₁, ha₁, hcause, hnta⟩
    obtain rfl := Option.some_inj.1 (ht'.symm.trans ht₁)
    obtain rfl := Option.some_inj.1 (ha.symm.trans ha₁)
    exact ⟨hcause, hnta⟩
  · exact fun ⟨hcause, hnta⟩ => ⟨t, a, ht', ha, hcause, hnta⟩

theorem not_retries_of_none {orq : Orq} (ht : c.attemptOf orq = none) (sip : Response) (nta : Creations) :
    ¬c.Retries orq sip nta := by
  rintro ⟨t, a, ht', ha, -⟩
  rw [attemptOf, ht', Option.bind_some, show c.attempts[t]? = some a from ha] at ht
  cases ht

/-- The INVITE of an attempt gets a final response: it is passed on, or another INVITE is sent. -/
theorem Outcome.calls_cases (h : c.AttemptInv) {irq : Irq} {orq : Orq} {bLeg : Leg} {t : ℕ} {a : TerminationAttempt}
    {sip : Response} {nta : Creations} (houtcome : Outcome c irq orq bLeg t a sip nta c')
    (ht : c.attemptOf orq = some (t, a)) :
    ¬c.Retries orq sip nta ∧
        ((∃ reply, c'.calls = ((c.calls.record (.sent bLeg .ack)).eraseAttempt orq).settle irq orq reply []) ∨
          ∃ n reply, c'.calls =
            ((Calls.eraseAttempt { c.calls with next := n } orq).settle irq orq reply []).clearDialog bLeg) ∨
      c.Retries orq sip nta ∧ ∃ request, c'.calls = c.calls.replaceAttempt irq orq ⟨c.calls.next + 1⟩ bLeg
        ⟨c.calls.next⟩ request t (c.calls.next + 2) := by
  have hretries := retries_iff ht sip nta
  -- A 200 is neither a redirect nor a crankback, and a crankback that fails has no transaction for another INVITE.
  cases houtcome with
  | answered reply f hstatus hreply hf hcalls hrecords =>
    refine .inl ⟨fun hr => ?_, .inl ⟨reply, hcalls⟩⟩
    rcases (hretries.1 hr).1 with hredirect | hcrank
    · omega
    · exact hcrank.status_ne.1 hstatus
  | failed n reply g f hstatus hcrank hredirect hn hreply hg hf hcalls hrecords =>
    refine .inl ⟨fun hr => ?_, .inr ⟨n, reply, hcalls⟩⟩
    obtain ⟨hcause, hnta⟩ := hretries.1 hr
    exact hcause.elim (fun hstatus' => hredirect hstatus' ((h.charged.grantsInvite_iff ht nta).2 hnta)) hcrank
  | redirected request g hstatus hnta hg hcalls hrecords =>
    exact .inr ⟨hretries.2 ⟨.inl hstatus, (h.charged.grantsInvite_iff ht nta).1 hnta⟩, request, hcalls⟩
  | crankedBack request f g k hcrank hnta hf hg hk hcalls hrecords =>
    exact .inr ⟨hretries.2 ⟨.inr hcrank, hnta⟩, request, hcalls⟩
  | crankbackFailed n reply f f' g k hcrank hnta hn hreply hf hf' hg hk hcalls hrecords =>
    exact .inl ⟨fun hr => hnta (hretries.1 hr).2, .inr ⟨n, reply, hcalls⟩⟩

theorem Outcome.turn (hs : c.calls.Typed) (h : c.AttemptInv) {orq : Orq} {bLeg : Leg} {t : ℕ}
    {a : TerminationAttempt} {sip : Response} {nta : Creations}
    (houtcome : Outcome c (c.calls.getAssociatedIncoming orq) orq bLeg t a sip nta c')
    (hreached : c.Reached orq) (hfinal : 200 ≤ sip.status) (ht : c.attemptOf orq = some (t, a)) :
    Turn c c' (.inviteResponse orq sip nta) := by
  have ht' := (attemptOf_eq_some ht).1
  rcases houtcome.calls_cases h ht with ⟨hno, ⟨reply, hcalls⟩ | ⟨n, reply, hcalls⟩⟩ | ⟨hyes, request, hcalls⟩
  · refine .answered hreached hfinal hno ?_
    rw [hcalls]
    exact ⟨rfl, rfl, Calls.creates_of_destroyed orq rfl⟩
  · obtain ⟨hpairs, hattempts, hout⟩ := failed_tables hcalls
    exact .answered hreached hfinal hno ⟨hpairs, hattempts, Calls.creates_of_destroyed orq hout⟩
  · obtain ⟨hattempts, -⟩ := replaced_tables hs h ht' hcalls
    refine .replaced ⟨c.calls.next + 1⟩ t hreached hfinal hyes ht' (Nat.lt_succ_self _) ⟨?_, hattempts, ?_⟩
    · rw [hcalls, Calls.replaceAttempt_transactions]
    · intro orq'
      rw [hcalls, Calls.replaceAttempt_outgoing, Calls.destroyOutgoing_ne_none]
      exact Calls.creates_of_update rfl orq'

theorem turn_inviteResponse (hs : c.calls.Typed) (h : c.AttemptInv) (orq : Orq) (sip : Response)
    (nta : Creations) :
    Turn c (c.processInviteResponseInsideDialog orq sip nta) (.inviteResponse orq sip nta) := by
  by_cases hreached : c.Reached orq
  · rw [inviteResponse_of_reached hreached]
    by_cases hfinal : 200 ≤ sip.status
    · cases ht : c.attemptOf orq with
      | some p =>
        exact (processInviteResponse_outcome hs.next_pos ht hfinal _ _ _ nta).turn hs h hreached hfinal ht
      | none =>
        -- An origination call: it has no attempt, so the table stays.
        have hnone := h.attempt_of_none ht
        have hself : Function.update c.calls.mapTerminationAttempts orq none = c.calls.mapTerminationAttempts :=
          Function.update_eq_self_iff.2 hnone.symm
        obtain ⟨hpairs, hattempts, hout⟩ := origination_tables ht hfinal (c.calls.getAssociatedIncoming orq)
          (c.calls.legFromIncoming (c.calls.getAssociatedIncoming orq)) (c.calls.legFromOutgoing orq) nta
        exact .answered hreached hfinal (not_retries_of_none ht sip nta)
          ⟨hpairs, hattempts.trans hself.symm, Calls.creates_of_destroyed orq hout⟩
    · have hidle : c.Idles (.inviteResponse orq sip nta) := fun h => hfinal h.2
      obtain ⟨heq | ⟨reply, -, heq⟩, -⟩ := processInviteResponse_provisional (not_le.1 hfinal) c
        (c.calls.getAssociatedIncoming orq) orq
        (c.calls.legFromIncoming (c.calls.getAssociatedIncoming orq)) (c.calls.legFromOutgoing orq) nta
      · exact .idle_of_calls hidle heq rfl rfl rfl
      · exact .idle_of_calls hidle heq rfl rfl rfl
  · obtain ⟨a, heq⟩ := inviteResponse_of_not_reached hreached sip nta
    rw [heq]
    exact .idle_of_calls (fun h => hreached h.1) rfl rfl rfl rfl

theorem turn_responseInsideDialog (h : c.AttemptInv) {orq : Orq} (sip : Response)
    (horq : ∃ o ∈ c.calls.outgoing orq, o.callback = .responseToRequestInsideDialog) :
    Turn c (c.processResponseInsideDialog orq sip) (.responseInsideDialog orq sip) := by
  have hnone := h.none_of_callback horq
  have hself : Function.update c.calls.mapTerminationAttempts orq none = c.calls.mapTerminationAttempts :=
    Function.update_eq_self_iff.2 hnone.symm
  unfold processResponseInsideDialog
  by_cases hnull : c.calls.getAssociatedIncoming orq = .null
  · simp only [if_pos hnull]
    exact .idle_of_calls (fun h => h.1 hnull) rfl rfl rfl rfl
  · simp only [if_neg hnull]
    unfold acknowledge
    by_cases hfinal : 200 ≤ sip.status
    · refine .settled hnull hfinal ?_
      rw [hself]
      simp only [if_pos hfinal]
      split_ifs with hack hleg
      · exact ⟨rfl, rfl, Calls.creates_of_destroyed orq rfl⟩
      · simp only [withCalls_calls, require_calls]
        exact ⟨rfl, rfl, Calls.creates_of_destroyed orq rfl⟩
      · exact ⟨rfl, rfl, Calls.creates_of_destroyed orq rfl⟩
    · simp only [if_neg hfinal]
      rw [if_neg (by omega)]
      exact .idle_of_calls (fun h => hfinal h.2) rfl rfl rfl rfl

/-! ## CANCEL and requests inside of dialogs -/

theorem turn_cancel {irq : Irq} (hcrash : ¬(c.processCancel irq).Crashed) :
    Turn c (c.processCancel irq) (.ackOrCancel irq .cancel) := by
  rcases processCancel_cases hcrash with ⟨hidle, -, heq | ⟨-, -, heq⟩⟩ | ⟨hnull, hleg, heq, -⟩
  · exact .idle_of_calls (fun _ => hidle) heq rfl rfl rfl
  · exact .idle_of_calls (fun _ => hidle) heq (Calls.clearDialog_transactions _ _)
      (Calls.clearDialog_mapTerminationAttempts _ _) (Calls.clearDialog_outgoing _ _)
  · obtain ⟨hpairs, hattempts, hout⟩ := cancelled_tables heq
    refine .cancelled hnull hleg ⟨hpairs, hattempts, fun orq => ?_⟩
    rw [hout, Calls.destroyOutgoing_ne_none, Calls.destroyOutgoing_ne_none, or_false]

theorem turn_sendOn {c₁ : Controller} (hpairs : c₁.calls.transactions = c.calls.transactions)
    (hattempts : c₁.calls.mapTerminationAttempts = c.calls.mapTerminationAttempts)
    (hout : c₁.calls.outgoing = c.calls.outgoing) (hnext : c₁.calls.next = c.calls.next + 1) (leg other : Leg)
    {sip : Request} (hmethod : sip.method ≠ .bye ∧ sip.method ≠ .ack) (nta : Creations) :
    Turn c (c₁.sendOn other ⟨c.calls.next⟩ sip nta) (.requestInsideDialog leg sip nta) := by
  unfold sendOn Calls.createOutgoing
  -- Without a transaction the pair is made all the same, with `NULL`.
  cases nta.orq with
  | false =>
    refine .forwarded .null hmethod (.inl rfl) ⟨?_, hattempts, fun orq' => ?_⟩
    · change c₁.calls.transactions.insert _ _ = _
      rw [hpairs]
    · change c₁.calls.outgoing orq' ≠ none ↔ _
      simp [hout]
  | true =>
    have hnull : (⟨c₁.calls.next⟩ : Orq) ≠ .null := Handle.mk_ne_null (by omega)
    refine .forwarded ⟨c₁.calls.next⟩ hmethod (.inr (by simp [hnext])) ⟨?_, hattempts, fun orq' => ?_⟩
    · change c₁.calls.transactions.insert _ _ = _
      rw [hpairs]
    · rw [and_iff_left hnull, ← hout]
      exact Calls.creates_of_update rfl orq'

/-- A request on a leg, of any method. -/
theorem turn_processMethod {c₁ : Controller} (hpairs : c₁.calls.transactions = c.calls.transactions)
    (hattempts : c₁.calls.mapTerminationAttempts = c.calls.mapTerminationAttempts)
    (hout : c₁.calls.outgoing = c.calls.outgoing) (hnext : c₁.calls.next = c.calls.next + 1) (leg other : Leg)
    (sip : Request) (nta : Creations) :
    Turn c (c₁.processMethod leg other ⟨c.calls.next⟩ sip nta).1 (.requestInsideDialog leg sip nta) := by
  unfold processMethod
  cases hmethod : sip.method with
  -- A BYE clears the dialog, which is in other tables.
  | bye =>
    unfold processBye
    dsimp only
    refine .idle_of_calls trivial (withCalls_calls _ _) ?_ ?_ ?_
    · refine (Calls.clearDialog_transactions _ _).trans ?_
      split_ifs
      · exact hpairs
      · exact (congrArg Calls.transactions (reportBye_calls _ _ _)).trans hpairs
    · refine (Calls.clearDialog_mapTerminationAttempts _ _).trans ?_
      split_ifs
      · exact hattempts
      · exact (congrArg Calls.mapTerminationAttempts (reportBye_calls _ _ _)).trans hattempts
    · refine (Calls.clearDialog_outgoing _ _).trans ?_
      split_ifs
      · exact hout
      · exact (congrArg Calls.outgoing (reportBye_calls _ _ _)).trans hout
  | ack => exact .idle_of_calls trivial rfl hpairs hattempts hout
  | invite | cancel | options | other name =>
    dsimp only
    split_ifs
    · exact .idle_of_calls trivial rfl hpairs hattempts hout
    · exact turn_sendOn hpairs hattempts hout hnext leg other (by simp [hmethod]) nta

theorem turn_requestInsideDialog (leg : Leg) (sip : Request) (nta : Creations) :
    Turn c (c.requestInsideDialog leg sip nta) (.requestInsideDialog leg sip nta) := by
  obtain ⟨hpairs, hattempts, hout⟩ := legRecv_tables
    ((c.withCalls (c.calls.receive leg)).processRequestInsideDialog leg ⟨c.calls.next⟩ sip nta).1.calls
    ⟨c.calls.next⟩ sip.method
    ((c.withCalls (c.calls.receive leg)).processRequestInsideDialog leg ⟨c.calls.next⟩ sip nta).2
  refine Turn.congr ?_ hpairs hattempts hout
  unfold processRequestInsideDialog
  cases (c.withCalls (c.calls.receive leg)).calls.getAssociatedDialog leg with
  | none => exact .idle_of_calls trivial rfl rfl rfl rfl
  | some other =>
    dsimp only
    split_ifs
    · refine turn_processMethod ?_ ?_ ?_ ?_ leg other sip nta <;> rfl
    · refine turn_processMethod ?_ ?_ ?_ ?_ leg other sip nta <;> rfl

/-- **What the events do to the transactions.** -/
theorem turn_next (hs : c.calls.Typed) (h : c.AttemptInv) {e : ControllerEvent} (he : machine.enabled c e) :
    Turn c (c.next e) e := by
  obtain ⟨hpossible, hcrash⟩ := he
  cases e with
  | requestOutsideDialog sip uuid nta => exact turn_requestOutsideDialog hs sip uuid nta
  | inviteResponse orq sip nta => exact turn_inviteResponse hs h orq sip nta
  | ackOrCancel irq method =>
    change Turn c (c.processAckOrCancel irq method) _
    change ¬(c.processAckOrCancel irq method).Crashed at hcrash
    unfold processAckOrCancel at hcrash ⊢
    split_ifs at hcrash ⊢ with hmethod
    · subst hmethod
      exact turn_cancel hcrash
    · exact .idle_of_calls (fun h => absurd h hmethod) rfl rfl rfl rfl
  | requestInsideDialog leg sip nta => exact turn_requestInsideDialog leg sip nta
  | responseInsideDialog orq sip =>
    obtain ⟨o, ho, hcallback, -⟩ := hpossible
    exact turn_responseInsideDialog h sip ⟨o, ho, hcallback⟩
  | sessionRefreshTimer leg =>
    obtain ⟨d, hd, -⟩ := hpossible
    obtain ⟨-, other, u, -, hu, heq⟩ := sessionRefreshTimer_cases (Option.ne_none_iff_exists'.2 ⟨d, hd⟩) hcrash
    refine .idle_of_calls trivial heq ?_ ?_ ?_
    · rw [Calls.clearDialog_transactions]
      rcases hu with rfl | ⟨a, rfl⟩ <;> rfl
    · rw [Calls.clearDialog_mapTerminationAttempts]
      rcases hu with rfl | ⟨a, rfl⟩ <;> rfl
    · rw [Calls.clearDialog_outgoing]
      rcases hu with rfl | ⟨a, rfl⟩ <;> rfl
  | retransmittedResponse leg sip =>
    obtain ⟨-, heq | heq⟩ := c.retransmittedResponse_cases leg sip
    · exact .idle_of_calls trivial heq rfl rfl rfl
    · exact .idle_of_calls trivial heq rfl rfl rfl
  | writeCdr connected | clock now | monitor fsMonitor | resetTrunkStats =>
    exact .idle_of_calls trivial rfl rfl rfl rfl

end

end Controller

end Ssp
