import Ssp.Fs.Selection
import Ssp.Stateless.Completion

/-!
# What becomes of a message

nta gives a message away to `statelessCallback`, which has to give it back to one of three
functions of nta, once, whatever it does with it. `ntaCalls` has the calls that it makes.

Two ways out of the function miss this. The ACK of a call that is not in the table reads the end
iterator (`soundDispatch_iff`). An INVITE for which there is no server returns a status, as if
somebody would answer with it, and is given to nobody. `disposed_iff` says that these are all.

The runs here go on to the step after which the process is gone (`unguarded`).
-/

namespace Ssp

/-- What nta is asked to do with a message. Each of the functions takes it, also where it fails. -/
inductive NtaCall
  /-- `nta_msg_tsend`, to a URL if there is one. -/
  | msgTsend (url : Option Bytes)
  /-- `nta_msg_treply`. -/
  | msgTreply (status : ℤ)
  /-- `nta_msg_discard`. -/
  | msgDiscard
  deriving DecidableEq

/-- The calls that make up what becomes of a message. -/
def Disposition.ntaCalls : Disposition → List NtaCall
  | .sent url => [.msgTsend (some url)]
  | .sentBack => [.msgTsend none]
  | .replied status => [.msgTreply status]
  | .discarded => [.msgDiscard]
  | .returned _ => []

namespace StatelessAgent

/-- The server for a new call. -/
def selectServer (s : StatelessAgent) : Option FsInstance :=
  let (fsMonitor, results) := s.fsMonitor.getAvailableServers
  results.bind fun results => results.head?.bind fun i => fsMonitor.servers[i]?

/-- The calls of nta with the message, in the INVITE case of `statelessCallback`. -/
def newInviteCalls (s : StatelessAgent) (sip : Request) : List NtaCall :=
  if !s.bIsActive then [.msgDiscard]
  else if s.nIterationCount = 0 then [.msgDiscard]
  else
    match s.selectServer with
    | none => []
    | some server => [.msgTsend (some (destUrl sip.sipTo.url.user server))]

/-- The calls of nta with the message that `statelessCallback` makes, in their order. -/
def ntaCalls (s : StatelessAgent) : SipMessage → List NtaCall
  | .request sip =>
    match s.mapInvitesInProgress.find? sip.callId with
    | some iip => [.msgTsend (some iip.strDestUrl)]
    | none =>
      match sip.method with
      | .options => if !s.bIsActive then [.msgDiscard] else [.msgTreply 200]
      | .invite => s.newInviteCalls sip
      | .ack | .bye | .cancel | .other _ => [.msgDiscard]
  | .response _ _ => [.msgTsend none]

/-- The message is given back to nta once, and the process survives it. -/
def Disposed (s : StatelessAgent) (msg : SipMessage) (rv : ℤ) : Prop :=
  ¬(s.statelessCallback msg rv).1.Crashed ∧ (s.ntaCalls msg).length = 1

/-- The ACK of a call that is not in the table. -/
def StrayAck (s : StatelessAgent) : SipMessage → Prop
  | .request sip => sip.method = .ack ∧ s.mapInvitesInProgress.find? sip.callId = none
  | .response _ _ => False

/-- The INVITE of a new call that would be taken, but for the servers: none is available. -/
def Unserved (s : StatelessAgent) : SipMessage → Prop
  | .request sip => sip.method = .invite ∧ s.mapInvitesInProgress.find? sip.callId = none ∧ s.bIsActive = true ∧
      s.nIterationCount ≠ 0 ∧ ∀ i, s.fsMonitor.available i = false
  | .response _ _ => False

/-- A condition on the messages. -/
def OnMessage (P : StatelessAgent → SipMessage → ℤ → Prop) (s : StatelessAgent) : StatelessEvent → Prop
  | .message msg rv => P s msg rv
  | _ => True

/-- All runs of the agent, those that crash included. -/
def unguarded : Machine StatelessAgent StatelessEvent := { machine with enabled := Possible }

variable {s : StatelessAgent} {msg : SipMessage} {rv : ℤ}

/-! ## One message -/

theorem newInviteCalls_eq (s : StatelessAgent) (sip : Request) (rv : ℤ) :
    s.newInviteCalls sip = (s.processNewInvite sip rv).2.ntaCalls := by
  unfold newInviteCalls processNewInvite
  by_cases hactive : (!s.bIsActive) = true
  · rw [if_pos hactive, if_pos (.inl hactive)]
    rfl
  · rw [if_neg hactive]
    by_cases hcount : s.nIterationCount = 0
    · rw [if_pos hcount, if_pos (.inr hcount)]
      rfl
    · rw [if_neg hcount, if_neg (not_or.2 ⟨hactive, hcount⟩)]
      dsimp only
      change (match s.selectServer with | none => _ | some server => _) =
        (match s.selectServer with | none => _ | some server => _ : StatelessAgent × Disposition).2.ntaCalls
      cases s.selectServer with
      | none => rfl
      | some server =>
        dsimp only
        split_ifs <;> rfl

/-- **The calls of nta** are those of what becomes of the message. -/
theorem ntaCalls_eq (s : StatelessAgent) (msg : SipMessage) (rv : ℤ) :
    s.ntaCalls msg = (s.statelessCallback msg rv).2.ntaCalls := by
  unfold ntaCalls statelessCallback
  cases msg with
  | request sip =>
    dsimp only
    cases s.mapInvitesInProgress.find? sip.callId with
    | some iip => rfl
    | none =>
      dsimp only
      unfold processNewRequest
      cases sip.method with
      | invite => exact s.newInviteCalls_eq sip rv
      | options =>
        dsimp only
        split_ifs <;> rfl
      | ack | bye | cancel | other name => rfl
  | response callId sip =>
    dsimp only
    split_ifs <;> rfl

/-- A server is found if there is one. -/
theorem selectServer_eq_none_iff : s.selectServer = none ↔ ∀ i, s.fsMonitor.available i = false := by
  unfold selectServer
  dsimp only
  rcases s.fsMonitor.getAvailableServers_cases with ⟨hnone, hall⟩ | ⟨i, rest, hsome, hava⟩
  · rw [hnone]
    exact iff_of_true rfl hall
  · obtain ⟨fs, hfs, -⟩ := FsMonitor.available_iff.1 hava
    rw [hsome, Option.bind_some, List.head?_cons, Option.bind_some, FsMonitor.getAvailableServers_servers, hfs]
    refine iff_of_false (Option.some_ne_none fs) fun hall => ?_
    exact Bool.false_ne_true ((hall i).symm.trans hava)

/-- **How often a message is given back**: not at all for the INVITE of a call for which there is no
    server, and once otherwise. -/
theorem length_ntaCalls_iff : (s.ntaCalls msg).length = 1 ↔ ¬s.Unserved msg := by
  unfold ntaCalls Unserved
  cases msg with
  | response callId sip => exact iff_of_true rfl not_false
  | request sip =>
    dsimp only
    cases s.mapInvitesInProgress.find? sip.callId with
    | some iip => exact iff_of_true rfl fun h => nomatch h.2.1
    | none =>
      dsimp only
      cases sip.method with
      | options =>
        refine iff_of_true ?_ fun h => nomatch h.1
        dsimp only
        split_ifs <;> rfl
      | ack | bye | cancel | other name => exact iff_of_true rfl fun h => nomatch h.1
      | invite =>
        dsimp only
        unfold newInviteCalls
        rw [← selectServer_eq_none_iff]
        cases s.bIsActive with
        | false => exact iff_of_true rfl fun h => nomatch h.2.2.1
        | true =>
          rw [if_neg (by decide)]
          by_cases hcount : s.nIterationCount = 0
          · rw [if_pos hcount]
            exact iff_of_true rfl fun h => h.2.2.2.1 hcount
          · rw [if_neg hcount]
            cases s.selectServer with
            | none => exact iff_of_false nofun fun h => h ⟨rfl, rfl, rfl, hcount, rfl⟩
            | some server => exact iff_of_true rfl fun h => nomatch h.2.2.2.2

theorem not_crashed_of_faults (h : s.faults = []) : ¬s.Crashed := by
  rw [Crashed, h]
  exact List.not_mem_nil

/-- **When the end iterator is read**: `setCompleted` is given it for the ACK of a call that is not in
    the table, and never else. -/
theorem crashed_iff_strayAck (hfaults : s.faults = []) : (s.statelessCallback msg rv).1.Crashed ↔ s.StrayAck msg := by
  have hsound : ∀ {s' : StatelessAgent}, s'.faults = s.faults → ¬s'.Crashed := fun heq =>
    not_crashed_of_faults (heq.trans hfaults)
  unfold statelessCallback StrayAck
  cases msg with
  | request sip =>
    dsimp only
    cases hcall : s.mapInvitesInProgress.find? sip.callId with
    | some iip => exact iff_of_false (hsound rfl) fun h => Option.some_ne_none iip h.2
    | none =>
      dsimp only
      unfold processNewRequest
      cases sip.method with
      | ack =>
        refine iff_of_true ?_ ⟨rfl, rfl⟩
        dsimp only
        rw [setCompleted, hcall]
        exact List.mem_cons_self
      | invite => exact iff_of_false (hsound (s.processNewInvite_frame sip rv).2) fun h => Method.noConfusion h.1
      | options =>
        refine iff_of_false ?_ fun h => Method.noConfusion h.1
        dsimp only
        split_ifs <;> exact hsound rfl
      | bye | cancel | other name => exact iff_of_false (hsound rfl) fun h => Method.noConfusion h.1
  | response callId sip =>
    dsimp only
    refine iff_of_false ?_ not_false
    split_ifs with hknown hstatus
    · -- The call is in the table.
      obtain ⟨call, hcall⟩ := Option.isSome_iff_exists.1 hknown.1
      have hcall' := (puts_updateCall hcall fun iip => iip.setLatestStatus (UInt32.ofInt sip.status)) callId
      rw [if_pos rfl] at hcall'
      rw [setCompleted, hcall']
      dsimp only
      split_ifs <;> exact hsound rfl
    · exact hsound rfl
    · exact hsound rfl

theorem disposed_iff_of_faults (hfaults : s.faults = []) : s.Disposed msg rv ↔ ¬s.StrayAck msg ∧ ¬s.Unserved msg := by
  rw [Disposed, crashed_iff_strayAck hfaults, length_ntaCalls_iff]

/-! ## Runs -/

variable {e : StatelessEvent} {es : List StatelessEvent}

/-- **What a step does**: the process is gone after the ACK of a call that is not in the table. -/
theorem not_crashed_next_iff (h : s.Inv) : ¬(s.next e).Crashed ↔ OnMessage (fun s msg _ => ¬s.StrayAck msg) s e := by
  cases e with
  | message msg rv => exact (crashed_iff_strayAck h.faults).not
  | watchdog idle =>
    obtain ⟨-, -, -, -, hfaults⟩ := h.toConsistent.watchdog_cases idle
    exact iff_of_true (not_crashed_of_faults (hfaults.trans h.faults)) trivial
  | clock now | monitor fsMonitor | installConfig agentMode bIsActive =>
    exact iff_of_true (not_crashed_of_faults (s := s.next _) h.faults) trivial

theorem Inv.next_of_sound (h : s.Inv) (he : s.Possible e) (hsound : OnMessage (fun s msg _ => ¬s.StrayAck msg) s e) :
    (s.next e).Inv := h.next ⟨he, (not_crashed_next_iff h).2 hsound⟩

/-- **Sound dispatch.** In a run, `setCompleted` is only ever given calls of the table exactly if
    no ACK comes for a call that is not in the table. -/
theorem soundDispatch_iff (hrun : unguarded.IsRun s es) :
    unguarded.Always (fun s => ¬s.Crashed) s es ↔
      unguarded.Along (OnMessage fun s msg _ => ¬s.StrayAck msg) s es := by
  have hinv := inv_init hrun.1
  refine Machine.always_iff_along (I := Inv) (fun s e h _ he hsound => h.next_of_sound he hsound)
    (fun s e h _ _ => not_crashed_next_iff h) hinv (not_crashed_of_faults hinv.faults) hrun.2

/-- **Every message once.** In a run, every message is given back to nta once exactly if no ACK comes
    for a call that is not in the table, and no INVITE of a new call while the agent takes calls and no
    server is available. -/
theorem disposed_iff (hrun : unguarded.IsRun s es) :
    unguarded.Along (OnMessage Disposed) s es ↔
      unguarded.Along (OnMessage fun s msg _ => ¬s.StrayAck msg ∧ ¬s.Unserved msg) s es := by
  refine Machine.along_iff_along (I := Inv) (fun s e h he hsound => h.next_of_sound he ?_) (fun s e h _ => ?_)
    (inv_init hrun.1) hrun.2
  · cases e with
    | message msg rv => exact hsound.1
    | watchdog idle | clock now | monitor fsMonitor | installConfig agentMode bIsActive => trivial
  · cases e with
    | message msg rv => exact disposed_iff_of_faults h.faults
    | watchdog idle | clock now | monitor fsMonitor | installConfig agentMode bIsActive => exact Iff.rfl

/-! ### An example -/

/-- The ACK of the call. -/
def exampleAck : StatelessEvent := .message (.request { method := .ack, callId := ['i'] }) 0

/-- A call that is refused. -/
def exampleRefused : List StatelessEvent := [exampleCallInvite, exampleCallResponse 486, exampleAck]

theorem exampleRefused_isRun : unguarded.IsRun exampleAgent exampleRefused :=
  ⟨exampleAgent_initial, rfl, rfl, rfl, trivial⟩

/-- The ACK of a call in the table does no harm. -/
theorem soundDispatch_exampleRefused : unguarded.Always (fun s => ¬s.Crashed) exampleAgent exampleRefused := by
  refine (soundDispatch_iff exampleRefused_isRun).2 ⟨fun h => (nomatch h.1), not_false, fun h => ?_, trivial⟩
  exact absurd h.2 (by decide)

/-- An ACK that comes before any INVITE ends the process. -/
theorem exampleAck_not_soundDispatch :
    ¬∀ (s : StatelessAgent) (es : List StatelessEvent), unguarded.IsRun s es →
      unguarded.Always (fun s => ¬s.Crashed) s es := by
  intro h
  obtain ⟨-, hlast⟩ := h exampleAgent [exampleAck] ⟨exampleAgent_initial, rfl, trivial⟩
  exact hlast (by decide)

/-- With a server, all messages of a call are given back. -/
theorem disposed_exampleRefused : unguarded.Along (OnMessage Disposed) exampleAgent exampleRefused := by
  refine (disposed_iff exampleRefused_isRun).2 ⟨⟨fun h => (nomatch h.1), fun h => ?_⟩, ⟨not_false, not_false⟩,
    ⟨fun h => ?_, fun h => nomatch h.1⟩, trivial⟩
  · exact absurd (h.2.2.2.2 0) (by decide)
  · exact absurd h.2 (by decide)

/-- Without a server, the INVITE of a call is given to nobody. -/
theorem exampleCallInvite_not_disposed :
    ¬∀ (s : StatelessAgent) (es : List StatelessEvent), unguarded.IsRun s es →
      unguarded.Along (OnMessage Disposed) s es := by
  intro h
  obtain ⟨⟨-, hlength⟩, -⟩ := h {} [exampleCallInvite] ⟨⟨rfl, rfl, rfl⟩, rfl, trivial⟩
  exact absurd hlength (by decide)

end StatelessAgent

end Ssp
