import Ssp.Lib.Expiry
import Ssp.Stateless.Affinity

/-!
# The sweep of the completed calls

The loop of the watchdog goes through the completed calls in the order of their completion, and
stops at the first one that is not expired. A later request of a completed call puts its expiry
time off, and the call keeps its place in the queue. Then the loop may stop at it, while calls
behind it are expired and stay.

`sweepsAll_iff`: at whatever time the loop may run, it takes out all completed calls that are
expired exactly if the queue is in the order of the expiry times. In a run this is so as long as
no request comes for a completed call behind which another one expires earlier
(`sweepsAll_iff_leavesOrder`). What is not completed or not expired stays in any case
(`Consistent.sweep_keeps`).
-/

namespace Ssp

namespace StatelessAgent

variable {s s' : StatelessAgent} {e : StatelessEvent} {callId : Bytes} {call : SipInboundCall} {now : ℕ}

/-- `getExpireTime` of the call of a Call-ID. -/
def expiry (s : StatelessAgent) (callId : Bytes) : ℕ := (s.mapInvitesInProgress.find? callId).elim 0 (·.expireTime)

theorem expiry_of_call (h : s.mapInvitesInProgress.find? callId = some call) : s.expiry callId = call.expireTime := by
  rw [expiry, h]
  rfl

/-- After the loop at the time `now`, no completed call is left that is expired, in the table or
    in the queue, and all other calls are still there. -/
def SweepsAll (s : StatelessAgent) (now : ℕ) : Prop :=
  ∃ calls callIds, sweep now s.mapInvitesInProgress s.deqCompletedCallIds = some (calls, callIds) ∧
    (∀ callId call, calls.find? callId = some call → call.bComplete = true → now < call.expireTime) ∧
    (∀ callId ∈ callIds, now < s.expiry callId) ∧
    ∀ callId call, s.mapInvitesInProgress.find? callId = some call → call.bComplete = false ∨ now < call.expireTime →
      calls.find? callId = some call ∧ (call.bComplete = true → callId ∈ callIds)

/-- A request does not put off a completed call behind which another one expires earlier. -/
def LeavesOrder (s : StatelessAgent) (e : StatelessEvent) : Prop :=
  ∀ callId, e.requests callId = true → ∀ pre post, s.deqCompletedCallIds = pre ++ callId :: post →
    ∀ x ∈ post, s.now + maxRetransmissionWait ≤ s.expiry x

/-! ## One sweep -/

/-- The loop ends at a call that is not expired. -/
theorem sweep_first {calls calls' : OrdMap Bytes SipInboundCall} {callIds rest : List Bytes}
    (h : sweep now calls callIds = some (calls', rest)) :
    ∀ x ∈ rest.head?, ∃ call, calls'.find? x = some call ∧ now < call.expireTime := by
  induction callIds generalizing calls with
  | nil =>
    obtain ⟨rfl, rfl⟩ := Prod.mk.inj (Option.some_inj.1 h)
    exact fun _ hx => nomatch hx
  | cons callId callIds ih =>
    rw [sweep] at h
    cases hcall : calls.find? callId with
    | none =>
      rw [hcall] at h
      cases h
    | some call =>
      rw [hcall] at h
      dsimp only at h
      split_ifs at h with hlt
      · obtain ⟨rfl, rfl⟩ := Prod.mk.inj (Option.some_inj.1 h)
        rintro x ⟨⟩
        exact ⟨call, hcall, hlt⟩
      · exact ih h

/-- What the loop takes out, and what it leaves. -/
theorem Consistent.swept (h : s.Consistent) (now : ℕ) :
    ∃ gone rest calls, sweep now s.mapInvitesInProgress s.deqCompletedCallIds = some (calls, rest) ∧
      Swept s.expiry now s.deqCompletedCallIds gone rest ∧
      ∀ x, calls.find? x = if x ∈ gone then none else s.mapInvitesInProgress.find? x := by
  obtain ⟨gone, rest, calls, hsplit, heq, hgone, hfind⟩ := sweep_eq_some now h.nodup fun x hx => by
    obtain ⟨call, hcall, -⟩ := (h.completed x).1 hx
    exact ⟨call, hcall⟩
  refine ⟨gone, rest, calls, heq, ⟨hsplit, fun x hx => ?_, fun x hx => ?_⟩, hfind⟩
  · obtain ⟨call, hcall, hle⟩ := hgone x hx
    rwa [expiry_of_call hcall]
  · obtain ⟨call, hcall, hlt⟩ := sweep_first heq x hx
    rw [hfind] at hcall
    split_ifs at hcall
    rwa [expiry_of_call hcall]

/-- **The loop takes out nothing else**: a call that is not completed, or not expired, stays. -/
theorem Consistent.sweep_keeps (h : s.Consistent) {gone rest : List Bytes} {calls : OrdMap Bytes SipInboundCall}
    (hs : Swept s.expiry now s.deqCompletedCallIds gone rest)
    (hfind : ∀ x, calls.find? x = if x ∈ gone then none else s.mapInvitesInProgress.find? x)
    (hcall : s.mapInvitesInProgress.find? callId = some call) (hstay : call.bComplete = false ∨ now < call.expireTime) :
    calls.find? callId = some call ∧ (call.bComplete = true → callId ∈ rest) := by
  have hnot : callId ∉ gone := by
    intro hmem
    have hcomplete := (h.mem_iff hcall).1 (hs.split ▸ List.mem_append_left rest hmem)
    have hle := hs.gone callId hmem
    rw [expiry_of_call hcall] at hle
    exact hstay.elim (fun hfalse => Bool.false_ne_true (hfalse.symm.trans hcomplete)) hle.not_gt
  refine ⟨(hfind callId).trans ((if_neg hnot).trans hcall), fun hcomplete => ?_⟩
  have hmem := (h.mem_iff hcall).2 hcomplete
  rw [hs.split] at hmem
  exact (List.mem_append.1 hmem).resolve_left hnot

/-- The loop is complete if nothing that is expired is left in the queue. -/
theorem Consistent.sweepsAll_iff_of_swept (h : s.Consistent) {gone rest : List Bytes}
    {calls : OrdMap Bytes SipInboundCall}
    (heq : sweep now s.mapInvitesInProgress s.deqCompletedCallIds = some (calls, rest))
    (hs : Swept s.expiry now s.deqCompletedCallIds gone rest)
    (hfind : ∀ x, calls.find? x = if x ∈ gone then none else s.mapInvitesInProgress.find? x) :
    s.SweepsAll now ↔ ∀ x ∈ rest, now < s.expiry x := by
  constructor
  · rintro ⟨calls', callIds, heq', -, hqueue, -⟩
    obtain ⟨rfl, rfl⟩ := Prod.mk.inj (Option.some_inj.1 (heq.symm.trans heq'))
    exact hqueue
  · intro hrest
    refine ⟨calls, rest, heq, fun callId call hcall hcomplete => ?_, hrest, fun callId call hcall hstay =>
      h.sweep_keeps hs hfind hcall hstay⟩
    rw [hfind] at hcall
    split_ifs at hcall with hnot
    -- It is in the queue, and was not taken out.
    have hmem := (h.mem_iff hcall).2 hcomplete
    rw [hs.split] at hmem
    have hlt := hrest callId ((List.mem_append.1 hmem).resolve_left hnot)
    rwa [expiry_of_call hcall] at hlt

/-- **One sweep**: it is complete at whatever time it comes exactly if the queue is in order. -/
theorem Consistent.sweepsAll_iff (h : s.Consistent) :
    (∀ now, s.SweepsAll now) ↔ InOrder s.expiry s.deqCompletedCallIds := by
  choose gone rest calls heq hs hfind using h.swept
  rw [inOrder_iff_complete hs]
  exact forall_congr' fun now => h.sweepsAll_iff_of_swept (heq now) (hs now) (hfind now)

/-! ## One step -/

/-- No call expires later than it would if it had a request now. -/
def Bounded (s : StatelessAgent) : Prop :=
  ∀ callId call, s.mapInvitesInProgress.find? callId = some call → call.expireTime ≤ s.now + maxRetransmissionWait

theorem Bounded.expiry_le (h : s.Bounded) (callId : Bytes) : s.expiry callId ≤ s.now + maxRetransmissionWait := by
  cases hcall : s.mapInvitesInProgress.find? callId with
  | none =>
    rw [expiry, hcall]
    exact Nat.zero_le _
  | some call =>
    rw [expiry_of_call hcall]
    exact h callId call hcall

theorem Puts.expiry (h : Puts s s' callId call) : s'.expiry = Function.update s.expiry callId call.expireTime := by
  funext x
  rw [StatelessAgent.expiry, h x, Function.update_apply]
  split_ifs <;> rfl

theorem Puts.bounded (h : Puts s s' callId call) (hnow : s'.now = s.now) (hs : s.Bounded)
    (hle : call.expireTime ≤ s.now + maxRetransmissionWait) : s'.Bounded := by
  intro x call' hx
  rw [hnow]
  rw [h x] at hx
  split_ifs at hx with heq
  · rwa [← Option.some_inj.1 hx]
  · exact hs x call' hx

/-- A step that is no request of a completed call leaves the order alone. -/
theorem leavesOrder_of_not_mem (h : ∀ callId, e.requests callId = true → callId ∉ s.deqCompletedCallIds) :
    s.LeavesOrder e := by
  intro callId hreq pre post hsplit
  refine absurd ?_ (h callId hreq)
  rw [hsplit]
  exact List.mem_append_right pre List.mem_cons_self

theorem Consistent.not_mem_of_none (h : s.Consistent) (hnone : s.mapInvitesInProgress.find? callId = none) :
    callId ∉ s.deqCompletedCallIds := by
  intro hmem
  obtain ⟨call, hcall, -⟩ := (h.completed callId).1 hmem
  cases hcall.symm.trans hnone

theorem message_inOrder_iff {msg : SipMessage} {rv : ℤ} {d : Disposition} (h : s.Consistent) (hb : s.Bounded)
    (ho : InOrder s.expiry s.deqCompletedCallIds) (hhandling : Handling s msg s' d) :
    InOrder s'.expiry s'.deqCompletedCallIds ↔ s.LeavesOrder (.message msg rv) := by
  cases hhandling with
  | forwarded sip call hmsg hcall hputs hdeq hd =>
    subst hmsg
    rw [hputs.expiry, hdeq]
    refine (inOrder_update_iff ho h.nodup fun x _ => hb.expiry_le x).trans ⟨fun hpost callId hreq => ?_, fun hpost =>
      hpost sip.callId (decide_eq_true rfl)⟩
    obtain rfl : sip.callId = callId := of_decide_eq_true hreq
    exact hpost
  | added sip url hmsg hmethod hnone hputs hdeq hd =>
    subst hmsg
    have hnot := h.not_mem_of_none hnone
    refine iff_of_true ?_ (leavesOrder_of_not_mem fun callId hreq => ?_)
    · rw [hputs.expiry, hdeq]
      exact ho.congr fun x hx => Function.update_of_ne (ne_of_mem_of_not_mem hx hnot) _ _
    · obtain rfl : sip.callId = callId := of_decide_eq_true hreq
      exact hnot
  | noted callId sip call hmsg hcall hmethod hstatus hputs hdeq =>
    subst hmsg
    refine iff_of_true ?_ (leavesOrder_of_not_mem fun _ hreq => nomatch hreq)
    -- The time of the call stays what it was.
    rw [hputs.expiry, hdeq, Function.update_eq_self_iff.2 (expiry_of_call hcall).symm]
    exact ho
  | completed callId sip call hmsg hcall hmethod hstatus hnot hputs hdeq =>
    subst hmsg
    refine iff_of_true ?_ (leavesOrder_of_not_mem fun _ hreq => nomatch hreq)
    have hnew : callId ∉ s.deqCompletedCallIds := by
      rw [h.mem_iff hcall, hnot]
      exact Bool.false_ne_true
    have hsame : ∀ x ∈ s.deqCompletedCallIds, s'.expiry x = s.expiry x := fun x hx => by
      rw [hputs.expiry, Function.update_of_ne (ne_of_mem_of_not_mem hx hnew)]
    rw [hdeq, h.own callId call hcall]
    refine (ho.congr hsame).append_singleton fun x hx => ?_
    rw [hsame x hx, hputs.expiry, Function.update_self]
    exact hb.expiry_le x
  | aside hmsg hmap hdeq =>
    refine iff_of_true ?_ (leavesOrder_of_not_mem fun callId hreq => ?_)
    · rw [hdeq, show s'.expiry = s.expiry by unfold StatelessAgent.expiry; rw [hmap]]
      exact ho
    · cases msg with
      | request sip =>
        obtain rfl : sip.callId = callId := of_decide_eq_true hreq
        exact h.not_mem_of_none hmsg
      | response callId' sip => cases hreq

theorem message_bounded {msg : SipMessage} {d : Disposition} (hb : s.Bounded) (hnow : s'.now = s.now)
    (hhandling : Handling s msg s' d) : s'.Bounded := by
  cases hhandling with
  | forwarded sip call hmsg hcall hputs hdeq hd => exact hputs.bounded hnow hb le_rfl
  | added sip url hmsg hmethod hnone hputs hdeq hd => exact hputs.bounded hnow hb (Nat.zero_le _)
  | noted callId sip call hmsg hcall hmethod hstatus hputs hdeq => exact hputs.bounded hnow hb (hb callId call hcall)
  | completed callId sip call hmsg hcall hmethod hstatus hnot hputs hdeq => exact hputs.bounded hnow hb le_rfl
  | aside hmsg hmap hdeq =>
    unfold Bounded
    rw [hmap, hnow]
    exact hb

theorem Bounded.next (hb : s.Bounded) (h : s.Inv) (he : machine.enabled s e) : (s.next e).Bounded := by
  cases e with
  | message msg rv => exact message_bounded hb (s.statelessCallback_frame msg rv).1 (handling_message he.2)
  | watchdog idle =>
    obtain ⟨gone, -, -, hfind, -⟩ := h.toConsistent.watchdog_cases idle
    intro callId call hcall
    rw [show (s.next (.watchdog idle)).now = s.now from s.processWatchdogTimer_now idle]
    have hcall' := (hfind callId).symm.trans hcall
    split_ifs at hcall'
    exact hb callId call hcall'
  | clock now => exact fun callId call hcall => (hb callId call hcall).trans (Nat.add_le_add_right he.1 _)
  | monitor fsMonitor | installConfig agentMode bIsActive => exact hb

/-- **What a step does to the order.** -/
theorem inOrder_next_iff (h : s.Inv) (hb : s.Bounded) (ho : InOrder s.expiry s.deqCompletedCallIds)
    (he : machine.enabled s e) :
    InOrder (s.next e).expiry (s.next e).deqCompletedCallIds ↔ s.LeavesOrder e := by
  cases e with
  | message msg rv => exact message_inOrder_iff h.toConsistent hb ho (handling_message he.2)
  | watchdog idle =>
    refine iff_of_true ?_ (leavesOrder_of_not_mem fun _ hreq => nomatch hreq)
    obtain ⟨gone, hqueue, -, hfind, -⟩ := h.toConsistent.watchdog_cases idle
    have hnodup := h.nodup
    rw [hqueue] at ho hnodup
    refine ho.of_append.congr fun x hx => ?_
    -- What is left in the queue is left in the table.
    rw [expiry, expiry, show (s.next (.watchdog idle)).mapInvitesInProgress.find? x = _ from hfind x,
      if_neg fun hmem => (List.nodup_append'.1 hnodup).2.2 hmem hx]
  | clock now | monitor fsMonitor | installConfig agentMode bIsActive =>
    exact iff_of_true ho (leavesOrder_of_not_mem fun _ hreq => nomatch hreq)

/-! ## Runs -/

/-- **Complete sweeps.** In a run, the loop of the watchdog would take out all completed calls that
    are expired in every state and at any time exactly if no request puts off a completed call
    behind which another one expires earlier. -/
theorem sweepsAll_iff_leavesOrder {es : List StatelessEvent} (hrun : machine.IsRun s es) :
    machine.Always (fun s => ∀ now, s.SweepsAll now) s es ↔ machine.Along LeavesOrder s es := by
  have hinv := inv_init hrun.1
  refine Machine.always_iff_along (I := fun s => s.Inv ∧ s.Bounded)
    (fun s e hI _ he _ => ⟨hI.1.next he, hI.2.next hI.1 he⟩) (fun s e hI hall he => ?_) ⟨hinv, ?_⟩ ?_ hrun.2
  · exact ((hI.1.next he).toConsistent.sweepsAll_iff).trans
      (inOrder_next_iff hI.1 hI.2 (hI.1.toConsistent.sweepsAll_iff.1 hall) he)
  · intro callId call hcall
    rw [hrun.1.mapInvitesInProgress] at hcall
    cases hcall
  · refine hinv.toConsistent.sweepsAll_iff.2 ?_
    rw [hrun.1.deqCompletedCallIds]
    exact inOrder_nil

/-! ### An example -/

/-- The INVITE of a call and the response 200 to it, at some time. -/
def exampleAnswered (callId : Bytes) (now : ℕ) : List StatelessEvent :=
  [.clock now, .message (.request { method := .invite, callId := callId, sipTo := { url := { user := some ['u'] } } }) 0,
    .message (.response callId { status := 200 }) 0]

/-- The BYE of a call, at some time. -/
def exampleBye (callId : Bytes) (now : ℕ) : List StatelessEvent :=
  [.clock now, .message (.request { method := .bye, callId := callId }) 0]

/-- Two calls, and the BYE of one of them. -/
def exampleCalls (callId : Bytes) : List StatelessEvent :=
  exampleAnswered ['i'] 0 ++ exampleAnswered ['j'] 1 ++ exampleBye callId 5

theorem exampleCalls_isRun (callId : Bytes) (h : callId = ['i'] ∨ callId = ['j']) :
    machine.IsRun exampleAgent (exampleCalls callId) := by
  refine ⟨exampleAgent_initial, ?_⟩
  rcases h with rfl | rfl <;> decide

/-- The BYE of the call that was completed last puts off nobody else. -/
theorem sweepsAll_exampleCalls :
    machine.Always (fun s => ∀ now, s.SweepsAll now) exampleAgent (exampleCalls ['j']) := by
  refine (sweepsAll_iff_leavesOrder (exampleCalls_isRun ['j'] (.inr rfl))).2 ?_
  have hfresh : ∀ {s : StatelessAgent} {e : StatelessEvent},
      (∀ callId, e.requests callId = true → callId ∉ s.deqCompletedCallIds) → s.LeavesOrder e := leavesOrder_of_not_mem
  refine ⟨hfresh nofun, hfresh ?_, hfresh nofun, hfresh nofun, hfresh ?_, hfresh nofun, hfresh nofun, ?_, trivial⟩
  · exact fun callId _ => List.not_mem_nil
  · rintro callId hreq
    obtain rfl : ['j'] = callId := of_decide_eq_true hreq
    decide
  · rintro callId hreq pre post hsplit x hx
    obtain rfl : ['j'] = callId := of_decide_eq_true hreq
    -- Nothing stands behind it.
    have hqueue : [['i'], ['j']] = pre ++ ['j'] :: post := hsplit
    rcases pre with _ | ⟨a, _ | ⟨b, pre⟩⟩
    · cases hqueue
    · obtain ⟨rfl, rfl⟩ : ['i'] = a ∧ [] = post := by simpa using hqueue
      cases hx
    · have hlen := congrArg List.length hqueue
      simp at hlen

/-- The BYE of the other call puts it off, and the watchdog stops at it: a call that expires at `9`
    is still there at `10`. -/
theorem exampleCalls_not_sweepsAll :
    ¬∀ (s : StatelessAgent) (es : List StatelessEvent), machine.IsRun s es →
      machine.Always (fun s => ∀ now, s.SweepsAll now) s es := by
  intro h
  have hall := h exampleAgent (exampleCalls ['i'] ++ []) (exampleCalls_isRun ['i'] (.inl rfl))
  obtain ⟨calls, callIds, heq, -, hqueue, -⟩ := (Machine.always_append hall).2 10
  obtain rfl : callIds = [['i'], ['j']] := by
    have hsnd : (sweep 10 (machine.exec exampleAgent (exampleCalls ['i'])).mapInvitesInProgress
        (machine.exec exampleAgent (exampleCalls ['i'])).deqCompletedCallIds).map Prod.snd =
          some [['i'], ['j']] := by decide
    rw [heq] at hsnd
    exact Option.some_inj.1 hsnd
  exact absurd (hqueue ['j'] (by simp)) (by decide)

end StatelessAgent

end Ssp
