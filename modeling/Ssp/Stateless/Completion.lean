import Mathlib.Data.List.Nodup
import Ssp.Stateless.Agent

/-!
# Completed calls

The queue of the completed Call-IDs goes with the table of the calls: it has each Call-ID of a
completed call once, and no other (`Consistent`), so that the watchdog finds every call that it
looks for.

A call is completed by the response 200 to its INVITE. A call that fails is to be completed by
the ACK, but the ACK of a call in the table is sent on before anybody looks at its method:
`noLeak_iff`.
-/

namespace Ssp

namespace StatelessAgent

variable {s s' : StatelessAgent} {msg : SipMessage} {rv : ℤ} {callId : Bytes} {call : SipInboundCall}

/-! ## What a message does -/

/-- The table is the same but for the call of one Call-ID. -/
def Puts (s s' : StatelessAgent) (callId : Bytes) (call : SipInboundCall) : Prop :=
  ∀ x, s'.mapInvitesInProgress.find? x = if x = callId then some call else s.mapInvitesInProgress.find? x

/-- The message is about no call in the table, or it is a response to another request. -/
def Unconcerned (s : StatelessAgent) : SipMessage → Prop
  | .request sip => s.mapInvitesInProgress.find? sip.callId = none
  | .response callId sip => s.mapInvitesInProgress.find? callId = none ∨ sip.cseqMethod ≠ .invite

/-- What a message does to the table and to the queue, and where it goes. -/
inductive Handling (s : StatelessAgent) (msg : SipMessage) (s' : StatelessAgent) (d : Disposition) : Prop
  /-- A request goes where the INVITE went. -/
  | forwarded (sip : Request) (call : SipInboundCall) (hmsg : msg = .request sip)
      (hcall : s.mapInvitesInProgress.find? sip.callId = some call)
      (hputs : Puts s s' sip.callId (call.updateExpireTime s.now))
      (hdeq : s'.deqCompletedCallIds = s.deqCompletedCallIds) (hd : d = .sent call.strDestUrl)
  /-- An INVITE is sent to a server. -/
  | added (sip : Request) (url : Bytes) (hmsg : msg = .request sip) (hmethod : sip.method = .invite)
      (hnone : s.mapInvitesInProgress.find? sip.callId = none)
      (hputs : Puts s s' sip.callId { strCallId := sip.callId, strDestUrl := url })
      (hdeq : s'.deqCompletedCallIds = s.deqCompletedCallIds) (hd : d = .sent url)
  /-- A response is noted. -/
  | noted (callId : Bytes) (sip : Response) (call : SipInboundCall) (hmsg : msg = .response callId sip)
      (hcall : s.mapInvitesInProgress.find? callId = some call) (hmethod : sip.cseqMethod = .invite)
      (hstatus : sip.status ≠ 200 ∨ call.bComplete = true)
      (hputs : Puts s s' callId (call.setLatestStatus (UInt32.ofInt sip.status)))
      (hdeq : s'.deqCompletedCallIds = s.deqCompletedCallIds)
  /-- A response completes a call. -/
  | completed (callId : Bytes) (sip : Response) (call : SipInboundCall) (hmsg : msg = .response callId sip)
      (hcall : s.mapInvitesInProgress.find? callId = some call) (hmethod : sip.cseqMethod = .invite)
      (hstatus : sip.status = 200) (hnot : call.bComplete = false)
      (hputs : Puts s s' callId ((call.setLatestStatus (UInt32.ofInt sip.status)).setCompleted s.now))
      (hdeq : s'.deqCompletedCallIds = s.deqCompletedCallIds ++ [call.strCallId])
  /-- The message has nothing to do with the table. -/
  | aside (hmsg : s.Unconcerned msg) (hmap : s'.mapInvitesInProgress = s.mapInvitesInProgress)
      (hdeq : s'.deqCompletedCallIds = s.deqCompletedCallIds)

theorem puts_updateCall (hcall : s.mapInvitesInProgress.find? callId = some call)
    (f : SipInboundCall → SipInboundCall) : Puts s (s.updateCall callId f) callId (f call) := by
  intro x
  change (s.mapInvitesInProgress.modify callId f).find? x = _
  rw [OrdMap.find?_modify]
  split_ifs with h
  · rw [h, hcall]
    rfl
  · rfl

theorem puts_insert (hnone : s.mapInvitesInProgress.find? callId = none) (call : SipInboundCall)
    (hmap : s'.mapInvitesInProgress = s.mapInvitesInProgress.insert callId call) : Puts s s' callId call := by
  intro x
  rw [hmap, OrdMap.find?_insert, hnone, Option.getD_none]
  split_ifs <;> rfl

theorem Puts.trans {s'' : StatelessAgent} {call' : SipInboundCall} (h : Puts s s' callId call)
    (h' : Puts s' s'' callId call') : Puts s s'' callId call' := by
  intro x
  rw [h' x, h x]
  split_ifs <;> rfl

theorem handling_newInvite {sip : Request} (hmethod : sip.method = .invite)
    (hnone : s.mapInvitesInProgress.find? sip.callId = none) (rv : ℤ) :
    Handling s (.request sip) (s.processNewInvite sip rv).1 (s.processNewInvite sip rv).2 := by
  unfold processNewInvite
  by_cases hrefuse : (!s.bIsActive) = true ∨ s.nIterationCount = 0
  · rw [if_pos hrefuse]
    exact .aside hnone rfl rfl
  · rw [if_neg hrefuse]
    dsimp only
    cases s.fsMonitor.getAvailableServers.2.bind _ with
    | none => exact .aside hnone rfl rfl
    | some server =>
      dsimp only
      by_cases hrv : rv ≠ 0
      · rw [if_pos hrv]
        exact .aside hnone rfl rfl
      · rw [if_neg hrv]
        exact .added sip _ rfl hmethod hnone (puts_insert hnone _ rfl) rfl rfl

theorem handling_newRequest {sip : Request} (hnone : s.mapInvitesInProgress.find? sip.callId = none)
    (hcrash : ¬(s.processNewRequest sip rv).1.Crashed) :
    Handling s (.request sip) (s.processNewRequest sip rv).1 (s.processNewRequest sip rv).2 := by
  unfold processNewRequest at hcrash ⊢
  cases hmethod : sip.method with
  | invite => exact handling_newInvite hmethod hnone rv
  | ack =>
    -- The end iterator was read.
    rw [hmethod, setCompleted, hnone] at hcrash
    exact absurd List.mem_cons_self hcrash
  | options =>
    by_cases hactive : (!s.bIsActive) = true
    · rw [if_pos hactive]
      exact .aside hnone rfl rfl
    · rw [if_neg hactive]
      exact .aside hnone rfl rfl
  | bye | cancel | other name => exact .aside hnone rfl rfl

theorem setCompleted_cases (hcall : s.mapInvitesInProgress.find? callId = some call) :
    call.bComplete = true ∧ s.setCompleted callId = s ∨
      call.bComplete = false ∧ Puts s (s.setCompleted callId) callId (call.setCompleted s.now) ∧
        (s.setCompleted callId).deqCompletedCallIds = s.deqCompletedCallIds ++ [call.strCallId] := by
  unfold setCompleted
  rw [hcall]
  dsimp only
  cases call.bComplete with
  | true => exact .inl ⟨rfl, rfl⟩
  | false => exact .inr ⟨rfl, puts_updateCall hcall _, rfl⟩

theorem handling_response {sip : Response} (hcall : s.mapInvitesInProgress.find? callId = some call)
    (hmethod : sip.cseqMethod = .invite) :
    Handling s (.response callId sip) (s.statelessCallback (.response callId sip) rv).1
      (s.statelessCallback (.response callId sip) rv).2 := by
  have hputs := puts_updateCall hcall fun iip => iip.setLatestStatus (UInt32.ofInt sip.status)
  unfold statelessCallback
  dsimp only
  rw [if_pos ⟨by rw [hcall]; rfl, hmethod⟩]
  by_cases hstatus : sip.status = 200
  · simp only [if_pos hstatus]
    have hcall' := hputs callId
    rw [if_pos rfl] at hcall'
    rcases setCompleted_cases hcall' with ⟨hcomplete, heq⟩ | ⟨hcomplete, hputs', hdeq⟩
    · rw [heq]
      exact .noted callId sip call rfl hcall hmethod (.inr hcomplete) hputs rfl
    · exact .completed callId sip call rfl hcall hmethod hstatus hcomplete (hputs.trans hputs') hdeq
  · simp only [if_neg hstatus]
    exact .noted callId sip call rfl hcall hmethod (.inl hstatus) hputs rfl

/-- **What a message does.** -/
theorem handling_message (hcrash : ¬(s.statelessCallback msg rv).1.Crashed) :
    Handling s msg (s.statelessCallback msg rv).1 (s.statelessCallback msg rv).2 := by
  cases msg with
  | request sip =>
    unfold statelessCallback at hcrash ⊢
    dsimp only at hcrash ⊢
    cases hcall : s.mapInvitesInProgress.find? sip.callId with
    | none =>
      rw [hcall] at hcrash
      exact handling_newRequest hcall hcrash
    | some call => exact .forwarded sip call rfl hcall (puts_updateCall hcall _) rfl rfl
  | response callId sip =>
    by_cases hmethod : sip.cseqMethod = .invite
    · cases hcall : s.mapInvitesInProgress.find? callId with
      | none =>
        unfold statelessCallback
        dsimp only
        rw [if_neg (by rw [hcall]; exact fun h => Bool.false_ne_true h.1)]
        exact .aside (.inl hcall) rfl rfl
      | some call => exact handling_response hcall hmethod
    · unfold statelessCallback
      dsimp only
      rw [if_neg fun h => hmethod h.2]
      exact .aside (.inr hmethod) rfl rfl

/-! ## What the watchdog does -/

/-- The watchdog takes the calls that are expired from the front of the queue, if it finds all
    that are in it. -/
theorem sweep_eq_some (now : ℕ) {calls : OrdMap Bytes SipInboundCall} {callIds : List Bytes}
    (hnodup : callIds.Nodup) (hfound : ∀ x ∈ callIds, ∃ call, calls.find? x = some call) :
    ∃ gone rest calls', callIds = gone ++ rest ∧ sweep now calls callIds = some (calls', rest) ∧
      (∀ x ∈ gone, ∃ call, calls.find? x = some call ∧ call.expireTime ≤ now) ∧
      ∀ x, calls'.find? x = if x ∈ gone then none else calls.find? x := by
  induction callIds generalizing calls with
  | nil => exact ⟨[], [], calls, rfl, rfl, fun _ hx => absurd hx List.not_mem_nil, fun x => by simp⟩
  | cons callId rest ih =>
    obtain ⟨hnot, hnodup⟩ := List.nodup_cons.1 hnodup
    obtain ⟨call, hcall⟩ := hfound callId List.mem_cons_self
    rw [sweep, hcall]
    dsimp only
    by_cases hexpired : now < call.expireTime
    · rw [if_pos hexpired]
      exact ⟨[], callId :: rest, calls, rfl, rfl, fun _ hx => absurd hx List.not_mem_nil, fun x => by simp⟩
    · -- The others are still in the table.
      have hother : ∀ x ∈ rest, (calls.erase callId).find? x = calls.find? x := by
        intro x hx
        rw [OrdMap.find?_erase, if_neg]
        rintro rfl
        exact hnot hx
      have hleft : ∀ x ∈ rest, ∃ call, (calls.erase callId).find? x = some call := by
        intro x hx
        rw [hother x hx]
        exact hfound x (List.mem_cons_of_mem _ hx)
      obtain ⟨gone, rest', calls', rfl, heq, hgone, hfind⟩ := ih hnodup hleft
      rw [if_neg hexpired]
      refine ⟨callId :: gone, rest', calls', rfl, heq, fun x hx => ?_, fun x => ?_⟩
      · rcases List.mem_cons.1 hx with rfl | hx
        · exact ⟨call, hcall, not_lt.1 hexpired⟩
        · rw [← hother x (List.mem_append_left _ hx)]
          exact hgone x hx
      · rw [hfind, OrdMap.find?_erase]
        by_cases hxa : x = callId
        · simp [hxa]
        · simp [hxa]

/-- The queue has the Call-IDs of the completed calls, and every call is under its own Call-ID. -/
structure Consistent (s : StatelessAgent) : Prop where
  nodup : s.deqCompletedCallIds.Nodup
  completed : ∀ callId, callId ∈ s.deqCompletedCallIds ↔
    ∃ call, s.mapInvitesInProgress.find? callId = some call ∧ call.bComplete = true
  own : ∀ callId call, s.mapInvitesInProgress.find? callId = some call → call.strCallId = callId

/-- **What the watchdog does**: it finds all that it looks for. -/
theorem Consistent.watchdog_cases (h : s.Consistent) (idle : Bool) :
    ∃ gone, s.deqCompletedCallIds = gone ++ (s.processWatchdogTimer idle).deqCompletedCallIds ∧
      (∀ x ∈ gone, ∃ call, s.mapInvitesInProgress.find? x = some call ∧ call.expireTime ≤ s.now) ∧
      (∀ x, (s.processWatchdogTimer idle).mapInvitesInProgress.find? x =
        if x ∈ gone then none else s.mapInvitesInProgress.find? x) ∧
      (s.processWatchdogTimer idle).faults = s.faults := by
  unfold processWatchdogTimer
  cases s.agentMode with
  | stateless =>
    obtain ⟨gone, rest, calls, hqueue, heq, hgone, hfind⟩ := sweep_eq_some s.now h.nodup fun x hx => by
      obtain ⟨call, hcall, -⟩ := (h.completed x).1 hx
      exact ⟨call, hcall⟩
    dsimp only
    rw [heq]
    dsimp only
    unfold shutDownIfIdle
    split_ifs
    · exact ⟨gone, hqueue, hgone, hfind, rfl⟩
    · exact ⟨gone, hqueue, hgone, hfind, rfl⟩
  | stateful =>
    refine ⟨[], ?_, fun _ hx => absurd hx List.not_mem_nil, fun x => ?_, ?_⟩ <;> dsimp only
    · split_ifs <;> rfl
    · rw [if_neg List.not_mem_nil]
      split_ifs <;> rfl
    · split_ifs <;> rfl

theorem processWatchdogTimer_now (s : StatelessAgent) (idle : Bool) : (s.processWatchdogTimer idle).now = s.now := by
  unfold processWatchdogTimer
  cases s.agentMode with
  | stateless =>
    dsimp only
    cases sweep s.now s.mapInvitesInProgress s.deqCompletedCallIds with
    | none => rfl
    | some r =>
      dsimp only
      unfold shutDownIfIdle
      split_ifs <;> rfl
  | stateful =>
    dsimp only
    split_ifs <;> rfl

/-! ## The invariant -/

/-- A call is changed, and neither its Call-ID nor whether it is completed. -/
theorem Consistent.puts (h : s.Consistent) {call' : SipInboundCall} (hputs : Puts s s' callId call')
    (hown : call'.strCallId = callId) (hdeq : s'.deqCompletedCallIds = s.deqCompletedCallIds)
    (hcomplete : call'.bComplete = true ↔ callId ∈ s.deqCompletedCallIds) : s'.Consistent := by
  refine ⟨hdeq ▸ h.nodup, fun x => ?_, fun x call hx => ?_⟩
  · rw [hdeq, hputs x]
    by_cases heq : x = callId
    · rw [if_pos heq, heq, ← hcomplete]
      simp
    · rw [if_neg heq]
      exact h.completed x
  · rw [hputs x] at hx
    split_ifs at hx with heq
    · rw [← Option.some_inj.1 hx, hown, heq]
    · exact h.own x call hx

/-- Whether a call in the table is completed. -/
theorem Consistent.mem_iff (h : s.Consistent) (hcall : s.mapInvitesInProgress.find? callId = some call) :
    callId ∈ s.deqCompletedCallIds ↔ call.bComplete = true := by
  rw [h.completed, hcall]
  simp

theorem Handling.consistent {d : Disposition} (hhandling : Handling s msg s' d) (h : s.Consistent) : s'.Consistent := by
  cases hhandling with
  | forwarded sip call hmsg hcall hputs hdeq hd =>
    exact h.puts hputs (h.own sip.callId call hcall) hdeq (h.mem_iff hcall).symm
  | added sip url hmsg hmethod hnone hputs hdeq hd =>
    refine h.puts hputs rfl hdeq (iff_of_false Bool.false_ne_true fun hmem => ?_)
    obtain ⟨call, hcall, -⟩ := (h.completed _).1 hmem
    exact Option.some_ne_none _ (hcall.symm.trans hnone)
  | noted callId sip call hmsg hcall hmethod hstatus hputs hdeq =>
    exact h.puts hputs (h.own callId call hcall) hdeq (h.mem_iff hcall).symm
  | completed callId sip call hmsg hcall hmethod hstatus hnot hputs hdeq =>
    have hown := h.own callId call hcall
    rw [hown] at hdeq
    refine ⟨?_, fun x => ?_, fun x call' hx => ?_⟩
    · -- It was not in the queue.
      rw [hdeq]
      refine h.nodup.append (List.nodup_singleton _) fun x hx hx' => ?_
      rw [List.mem_singleton.1 hx', h.mem_iff hcall, hnot] at hx
      exact Bool.false_ne_true hx
    · rw [hdeq, hputs x, List.mem_append, List.mem_singleton]
      by_cases heq : x = callId
      · rw [if_pos heq]
        exact iff_of_true (.inr heq) ⟨_, rfl, rfl⟩
      · rw [if_neg heq, ← h.completed x]
        exact or_iff_left heq
    · rw [hputs x] at hx
      split_ifs at hx with heq
      · rw [← Option.some_inj.1 hx, heq]
        exact hown
      · exact h.own x call' hx
  | aside hmsg hmap hdeq =>
    refine ⟨hdeq ▸ h.nodup, fun x => ?_, fun x => ?_⟩
    · rw [hdeq, hmap]
      exact h.completed x
    · rw [hmap]
      exact h.own x

theorem Consistent.watchdog (h : s.Consistent) (idle : Bool) : (s.processWatchdogTimer idle).Consistent := by
  obtain ⟨gone, hqueue, -, hfind, -⟩ := h.watchdog_cases idle
  have hnodup := h.nodup
  rw [hqueue] at hnodup
  obtain ⟨-, hrest, hdisjoint⟩ := List.nodup_append'.1 hnodup
  refine ⟨hrest, fun x => ?_, fun x call hx => ?_⟩
  · by_cases hx : x ∈ gone
    · rw [hfind, if_pos hx]
      exact iff_of_false (fun hmem => hdisjoint hx hmem) (by simp)
    · rw [hfind, if_neg hx, ← h.completed x, hqueue, List.mem_append]
      exact (or_iff_right hx).symm
  · rw [hfind] at hx
    split_ifs at hx
    exact h.own x call hx

theorem setCompleted_frame (s : StatelessAgent) (callId : Bytes) : (s.setCompleted callId).now = s.now ∧
    ((s.setCompleted callId).faults = s.faults ∨ (s.setCompleted callId).Crashed) := by
  unfold setCompleted
  cases s.mapInvitesInProgress.find? callId with
  | none => exact ⟨rfl, .inr List.mem_cons_self⟩
  | some call =>
    dsimp only
    split_ifs
    · exact ⟨rfl, .inl rfl⟩
    · exact ⟨rfl, .inl rfl⟩

theorem processNewInvite_frame (s : StatelessAgent) (sip : Request) (rv : ℤ) :
    (s.processNewInvite sip rv).1.now = s.now ∧ (s.processNewInvite sip rv).1.faults = s.faults := by
  unfold processNewInvite
  by_cases hrefuse : (!s.bIsActive) = true ∨ s.nIterationCount = 0
  · rw [if_pos hrefuse]
    exact ⟨rfl, rfl⟩
  · rw [if_neg hrefuse]
    dsimp only
    cases s.fsMonitor.getAvailableServers.2.bind _ with
    | none => exact ⟨rfl, rfl⟩
    | some server =>
      dsimp only
      by_cases hrv : rv ≠ 0
      · rw [if_pos hrv]
        exact ⟨rfl, rfl⟩
      · rw [if_neg hrv]
        exact ⟨rfl, rfl⟩

/-- What a message leaves alone. -/
theorem statelessCallback_frame (s : StatelessAgent) (msg : SipMessage) (rv : ℤ) :
    (s.statelessCallback msg rv).1.now = s.now ∧
      ((s.statelessCallback msg rv).1.faults = s.faults ∨ (s.statelessCallback msg rv).1.Crashed) := by
  unfold statelessCallback
  cases msg with
  | request sip =>
    dsimp only
    cases s.mapInvitesInProgress.find? sip.callId with
    | some call => exact ⟨rfl, .inl rfl⟩
    | none =>
      dsimp only
      unfold processNewRequest
      cases sip.method with
      | invite => exact (s.processNewInvite_frame sip rv).imp_right .inl
      | ack => exact s.setCompleted_frame sip.callId
      | options =>
        dsimp only
        cases s.bIsActive <;> exact ⟨rfl, .inl rfl⟩
      | bye | cancel | other name => exact ⟨rfl, .inl rfl⟩
  | response callId sip =>
    dsimp only
    split_ifs
    · exact setCompleted_frame (s.updateCall callId _) callId
    · exact ⟨rfl, .inl rfl⟩
    · exact ⟨rfl, .inl rfl⟩

/-- What holds in every run. -/
structure Inv (s : StatelessAgent) : Prop extends s.Consistent where
  faults : s.faults = []

theorem Inv.next {e : StatelessEvent} (h : s.Inv) (he : machine.enabled s e) : (s.next e).Inv := by
  obtain ⟨-, hcrash⟩ := he
  cases e with
  | message msg rv => 
    exact ⟨(handling_message hcrash).consistent h.toConsistent,
      ((s.statelessCallback_frame msg rv).2.resolve_right hcrash).trans h.faults⟩
  | watchdog idle =>
    obtain ⟨-, -, -, -, hfaults⟩ := h.toConsistent.watchdog_cases idle
    exact ⟨h.toConsistent.watchdog idle, hfaults.trans h.faults⟩
  | clock now | monitor fsMonitor | installConfig agentMode bIsActive => exact { h with }

theorem inv_init (hs : s.Initial) : s.Inv := by
  refine ⟨⟨?_, fun callId => ?_, fun callId call hcall => ?_⟩, hs.faults⟩
  · rw [hs.deqCompletedCallIds]
    exact List.nodup_nil
  · rw [hs.deqCompletedCallIds, hs.mapInvitesInProgress]
    refine iff_of_false List.not_mem_nil ?_
    rintro ⟨call, hcall, -⟩
    cases hcall
  · rw [hs.mapInvitesInProgress] at hcall
    cases hcall

theorem inv_of_reachable (h : machine.Reachable s) : s.Inv := by
  refine h.invariant (I := Inv) (fun s hs => ?_) fun s e hs he => hs.next he
  exact inv_init hs

/-- **The table and the queue.** In every run the queue has exactly the Call-IDs of the
    completed calls, each once, and every call is under its own Call-ID; the assertion of
    the watchdog holds. -/
theorem consistent_of_reachable (h : machine.Reachable s) :
    s.Consistent ∧ ∀ idle, .completedNotFound ∉ (s.processWatchdogTimer idle).faults := by
  have hinv := inv_of_reachable h
  refine ⟨hinv.toConsistent, fun idle hmem => ?_⟩
  obtain ⟨-, -, -, -, hfaults⟩ := hinv.toConsistent.watchdog_cases idle
  rw [hfaults, hinv.faults] at hmem
  exact List.not_mem_nil hmem

/-- A call that is in the table was there before, and stays completed if it was, or its INVITE
    came just now. -/
theorem Inv.call_cases {e : StatelessEvent} (h : s.Inv) (he : machine.enabled s e)
    (hcall : (s.next e).mapInvitesInProgress.find? callId = some call) :
    (∃ old, s.mapInvitesInProgress.find? callId = some old ∧ (old.bComplete = true → call.bComplete = true)) ∨
      s.mapInvitesInProgress.find? callId = none ∧
        ∃ sip rv, e = .message (.request sip) rv ∧ sip.callId = callId := by
  obtain ⟨-, hcrash⟩ := he
  cases e with
  | message msg rv =>
    have hputs : ∀ {callId' : Bytes} {old new : SipInboundCall}, s.mapInvitesInProgress.find? callId' = some old →
        Puts s (s.next (.message msg rv)) callId' new → (old.bComplete = true → new.bComplete = true) →
        ∃ old, s.mapInvitesInProgress.find? callId = some old ∧ (old.bComplete = true → call.bComplete = true) := by
      intro callId' old new hold hputs hkeeps
      rw [hputs callId] at hcall
      split_ifs at hcall with heq
      · exact ⟨old, heq ▸ hold, Option.some_inj.1 hcall ▸ hkeeps⟩
      · exact ⟨call, hcall, id⟩
    cases handling_message hcrash with
    | forwarded sip old hmsg hold hputs' hdeq hd => exact .inl (hputs hold hputs' id)
    | noted callId' sip old hmsg hold hmethod hstatus hputs' hdeq => exact .inl (hputs hold hputs' id)
    | completed callId' sip old hmsg hold hmethod hstatus hnot hputs' hdeq =>
      exact .inl (hputs hold hputs' fun _ => rfl)
    | added sip url hmsg hmethod hnone hputs' hdeq hd =>
      have hcall' := hputs' callId
      split_ifs at hcall' with heq
      · exact .inr ⟨heq ▸ hnone, sip, rv, hmsg ▸ rfl, heq.symm⟩
      · exact .inl ⟨call, hcall'.symm.trans hcall, id⟩
    | aside hmsg hmap hdeq => exact .inl ⟨call, hmap ▸ hcall, id⟩
  | watchdog idle =>
    obtain ⟨gone, -, -, hfind, -⟩ := h.toConsistent.watchdog_cases idle
    have hcall' := hfind callId
    split_ifs at hcall'
    · cases hcall'.symm.trans hcall
    · exact .inl ⟨call, hcall'.symm.trans hcall, id⟩
  | clock now | monitor fsMonitor | installConfig agentMode bIsActive => exact .inl ⟨call, hcall, id⟩

/-! ### An example -/

/-- An agent with one server. -/
def exampleAgent : StatelessAgent where
  fsMonitor :=
    { servers := [{ strAddress := ['f'], nEventSocketPort := 8021, nMaxSessions := 10
                    state := .queryingStatus }] }

/-- The INVITE of a call. -/
def exampleCallInvite : StatelessEvent :=
  .message (.request { method := .invite, callId := ['i'], sipTo := { url := { user := some ['u'] } } }) 0

/-- A response to it. -/
def exampleCallResponse (status : ℤ) : StatelessEvent := .message (.response ['i'] { status := status }) 0

theorem exampleAgent_initial : exampleAgent.Initial := ⟨rfl, rfl, rfl⟩

/-- The call is answered, and completed. -/
theorem consistent_exampleAgent :
    (machine.exec exampleAgent [exampleCallInvite, exampleCallResponse 200]).deqCompletedCallIds = [['i']] ∧
      (machine.exec exampleAgent [exampleCallInvite, exampleCallResponse 200]).Consistent := by
  have hreachable : machine.Reachable (machine.exec exampleAgent [exampleCallInvite, exampleCallResponse 200]) :=
    Machine.Reachable.exec (.init exampleAgent_initial) ⟨⟨rfl, by decide⟩, ⟨rfl, by decide⟩, trivial⟩
  exact ⟨by decide, (consistent_of_reachable hreachable).1⟩

end StatelessAgent

/-! ## Calls that fail -/

/-- What was seen of a call: its INVITE was answered with 300 or more, and that was
    acknowledged. -/
inductive Progress
  | pending
  | failed
  | acknowledged
  deriving DecidableEq

/-- The agent, with what was seen of the calls in its table. -/
structure Observed where
  agent : StatelessAgent
  progress : Bytes → Progress := fun _ => .pending

namespace Observed

/-- What is seen of the calls in an event. -/
def observe (x : Observed) : StatelessEvent → Bytes → Progress
  | .message (.request sip) _ =>
    if (x.agent.mapInvitesInProgress.find? sip.callId).isNone then Function.update x.progress sip.callId .pending
    else if sip.method = .ack ∧ x.progress sip.callId = .failed then
      Function.update x.progress sip.callId .acknowledged
    else x.progress
  | .message (.response callId sip) _ =>
    if sip.cseqMethod = .invite ∧ 300 ≤ sip.status ∧ x.progress callId = .pending then
      Function.update x.progress callId .failed
    else x.progress
  | _ => x.progress

def next (x : Observed) (e : StatelessEvent) : Observed := ⟨x.agent.next e, x.observe e⟩

/-- The runs of the agent. -/
def machine : Machine Observed StatelessEvent where
  init := { x | x.agent.Initial }
  enabled x e := StatelessAgent.machine.enabled x.agent e
  next := next

/-- A call in the table that failed, and whose failure was acknowledged, is completed and in the
    queue. -/
def NoLeak (x : Observed) : Prop :=
  ∀ callId call, x.agent.mapInvitesInProgress.find? callId = some call → x.progress callId = .acknowledged →
    call.bComplete = true ∧ callId ∈ x.agent.deqCompletedCallIds

/-- The event is not the ACK of a call in the table that failed and is not completed. -/
def Harmless (x : Observed) : StatelessEvent → Prop
  | .message (.request sip) _ => sip.method = .ack → x.progress sip.callId = .failed →
    ∀ call ∈ x.agent.mapInvitesInProgress.find? sip.callId, call.bComplete = true
  | _ => True

section

variable {x : Observed} {e : StatelessEvent}

/-- What was acknowledged is what was, or what is acknowledged now. -/
theorem acknowledged_of_observe {callId : Bytes} (h : x.observe e callId = .acknowledged) :
    x.progress callId = .acknowledged ∨ ∃ sip rv, e = .message (.request sip) rv ∧ sip.callId = callId ∧
      sip.method = .ack ∧ x.progress callId = .failed ∧ x.agent.mapInvitesInProgress.find? callId ≠ none := by
  cases e with
  | message msg rv =>
    cases msg with
    | request sip =>
      change (if _ then _ else _ : Bytes → Progress) callId = _ at h
      split_ifs at h with hnone hack
      · rw [Function.update_apply] at h
        split_ifs at h
        exact .inl h
      · rw [Function.update_apply] at h
        split_ifs at h with heq
        · refine .inr ⟨sip, rv, rfl, heq.symm, hack.1, heq ▸ hack.2, ?_⟩
          rw [heq]
          exact fun hcall => hnone (by rw [hcall]; rfl)
        · exact .inl h
      · exact .inl h
    | response callId' sip =>
      change (if _ then _ else _ : Bytes → Progress) callId = _ at h
      split_ifs at h
      · rw [Function.update_apply] at h
        split_ifs at h
        exact .inl h
      · exact .inl h
  | watchdog idle | clock now | monitor fsMonitor | installConfig agentMode bIsActive => exact .inl h

/-- **What a step does.** -/
theorem noLeak_next_iff (hinv : x.agent.Inv) (h : x.NoLeak) (he : machine.enabled x e) :
    (x.next e).NoLeak ↔ x.Harmless e := by
  constructor
  · intro hleak
    cases e with
    | message msg rv =>
      cases msg with
      | request sip =>
        intro hack hfailed call hcall
        -- The ACK is sent on, and the call stays as it is.
        have hputs : (x.next (.message (.request sip) rv)).agent.mapInvitesInProgress.find? sip.callId =
            some (call.updateExpireTime x.agent.now) := by
          change (x.agent.statelessCallback (.request sip) rv).1.mapInvitesInProgress.find? _ = _
          rw [StatelessAgent.statelessCallback, show x.agent.mapInvitesInProgress.find? sip.callId = some call from hcall]
          refine (StatelessAgent.puts_updateCall hcall _ _).trans (if_pos rfl)
        have hprogress : x.observe (.message (.request sip) rv) sip.callId = .acknowledged := by
          rw [observe, show x.agent.mapInvitesInProgress.find? sip.callId = some call from hcall,
            Option.isNone_some, if_neg Bool.false_ne_true, if_pos ⟨hack, hfailed⟩, Function.update_self]
        exact (hleak sip.callId _ hputs hprogress).1
      | response callId sip => trivial
    | watchdog idle | clock now | monitor fsMonitor | installConfig agentMode bIsActive => trivial
  · intro hharmless callId call hcall hprogress
    have hcomplete : call.bComplete = true := by
      rcases hinv.call_cases he hcall with ⟨old, hold, hkeeps⟩ | ⟨hnone, sip, rv, rfl, rfl⟩
      · refine hkeeps ?_
        rcases acknowledged_of_observe hprogress with hack | ⟨sip, rv, rfl, rfl, hack, hfailed, -⟩
        · exact (h callId old hold hack).1
        · exact hharmless hack hfailed old hold
      · -- Nothing was seen yet of a call that is new.
        change x.observe (.message (.request sip) rv) sip.callId = _ at hprogress
        rw [observe, hnone, Option.isNone_none, if_pos rfl, Function.update_self] at hprogress
        cases hprogress
    exact ⟨hcomplete, ((hinv.next he).toConsistent.mem_iff hcall).2 hcomplete⟩

/-- **Calls that fail.** In a run, every call that failed and was acknowledged is completed
    exactly if none is acknowledged that is not completed before. -/
theorem noLeak_iff {es : List StatelessEvent} (hrun : machine.IsRun x es) :
    machine.Always NoLeak x es ↔ machine.Along Harmless x es := by
  have hinit : x.agent.Initial := hrun.1
  refine Machine.always_iff_along (I := fun x => x.agent.Inv) (fun x e h _ he _ => h.next he)
    (fun x e h hleak he => noLeak_next_iff h hleak he) (StatelessAgent.inv_init hinit) ?_ hrun.2
  intro callId call hcall
  rw [hinit.mapInvitesInProgress] at hcall
  cases hcall

end

/-! ### An example -/

/-- The ACK of the call. -/
def exampleCallAck : StatelessEvent := .message (.request { method := .ack, callId := ['i'] }) 0

/-- The call is answered, and a request in it is refused. -/
def exampleCallRefused : List StatelessEvent :=
  [StatelessAgent.exampleCallInvite, StatelessAgent.exampleCallResponse 200, StatelessAgent.exampleCallResponse 486,
    exampleCallAck]

/-- A call that was answered before it failed is completed already. -/
theorem noLeak_exampleCall :
    machine.IsRun ⟨StatelessAgent.exampleAgent, fun _ => .pending⟩ exampleCallRefused ∧
      (machine.exec ⟨StatelessAgent.exampleAgent, fun _ => .pending⟩ exampleCallRefused).progress ['i'] =
        .acknowledged ∧
      machine.Always NoLeak ⟨StatelessAgent.exampleAgent, fun _ => .pending⟩ exampleCallRefused := by
  have hrun : machine.IsRun ⟨StatelessAgent.exampleAgent, fun _ => .pending⟩ exampleCallRefused :=
    ⟨StatelessAgent.exampleAgent_initial, ⟨rfl, by decide⟩, ⟨rfl, by decide⟩, ⟨rfl, by decide⟩, ⟨rfl, by decide⟩,
      trivial⟩
  refine ⟨hrun, by decide, (noLeak_iff hrun).2 ⟨?_, trivial, trivial, ?_, trivial⟩⟩
  · exact fun h => absurd h (by decide)
  · exact fun _ _ => by decide

/-- A call that is refused is not completed by its ACK. -/
theorem exampleCall_leaks :
    machine.IsRun ⟨StatelessAgent.exampleAgent, fun _ => .pending⟩
        [StatelessAgent.exampleCallInvite, StatelessAgent.exampleCallResponse 486, exampleCallAck] ∧
      ¬machine.Always NoLeak ⟨StatelessAgent.exampleAgent, fun _ => .pending⟩
        [StatelessAgent.exampleCallInvite, StatelessAgent.exampleCallResponse 486, exampleCallAck] := by
  refine ⟨⟨StatelessAgent.exampleAgent_initial, ⟨rfl, by decide⟩, ⟨rfl, by decide⟩, ⟨rfl, by decide⟩, trivial⟩, ?_⟩
  rintro ⟨-, -, -, hleak⟩
  exact absurd (hleak ['i'] _ rfl (by decide)).1 (by decide)

end Observed

end Ssp
