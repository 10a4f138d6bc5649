import Ssp.Controller.Typed

/-!
# Session timers

An origination call gets a session timer if the INVITE asks for one and one is configured. Its
seconds are kept with the dialog of the A leg, and the timer runs from the 200 for the INVITE on, for
as many milliseconds as an `unsigned int` can hold of them. A re-INVITE or UPDATE on the leg is sent
on like any other request: nothing starts the timer again.

What an event does to the dialogs is said once (`dialogStep_next`). `Timed` has the controller with a
clock: the timers expire when they are due, or later.

* `started_exactly_iff`: the timer of a call runs for exactly the seconds that were asked for and are
  announced, if they are at most 4294967.
* `survives_iff`: no call that was refreshed is cleared by its timer, as long as no call is refreshed after
  its answer; where no timer is late, then only.
-/

namespace Ssp

/-! ## What the tables keep of a dialog -/

/-- `d'` is `d` as far as its session timer goes, which may have been stopped. -/
structure SipDialogInfo.Continues (d d' : SipDialogInfo) : Prop where
  bOrigination : d'.bOrigination = d.bOrigination
  nSessionTimer : d'.nSessionTimer = d.nSessionTimer
  timer : d'.timerSessionRefresh = d.timerSessionRefresh ∨ d'.timerSessionRefresh = none

namespace SipDialogInfo

variable {d d' d'' : SipDialogInfo}

theorem Continues.refl (d : SipDialogInfo) : d.Continues d := ⟨rfl, rfl, .inl rfl⟩

theorem Continues.trans (h : d.Continues d') (h' : d'.Continues d'') : d.Continues d'' := by
  refine ⟨h'.bOrigination.trans h.bOrigination, h'.nSessionTimer.trans h.nSessionTimer, ?_⟩
  rcases h'.timer with heq | hnone
  · exact heq ▸ h.timer
  · exact .inr hnone

end SipDialogInfo

namespace Calls

/-- Every dialog of `s'` is one of `s`, on the same leg. -/
def Continues (s s' : Calls) : Prop :=
  ∀ l, ∀ d' ∈ s'.mapDialogInfo l, ∃ d ∈ s.mapDialogInfo l, d.Continues d'

section

variable {s s' s'' : Calls}

theorem Continues.of_eq (h : s'.mapDialogInfo = s.mapDialogInfo) : Continues s s' :=
  fun _ d' hd' => ⟨d', h ▸ hd', .refl d'⟩

theorem Continues.trans (h : Continues s s') (h' : Continues s' s'') : Continues s s'' := by
  intro l d'' hd''
  obtain ⟨d', hd', hcont'⟩ := h' l d'' hd''
  obtain ⟨d, hd, hcont⟩ := h l d' hd'
  exact ⟨d, hd, hcont.trans hcont'⟩

theorem mem_eraseDialogInfo {leg l : Leg} {d : SipDialogInfo} (hd : d ∈ (s.eraseDialogInfo leg).mapDialogInfo l) :
    d ∈ s.mapDialogInfo l := by
  change Function.update s.mapDialogInfo leg none l = some d at hd
  by_cases heq : l = leg
  · rw [heq, Function.update_self] at hd
    cases hd
  · rwa [Function.update_of_ne heq] at hd

theorem Continues.eraseDialogInfo (s : Calls) (leg : Leg) : Continues s (s.eraseDialogInfo leg) :=
  fun _ d hd => ⟨d, mem_eraseDialogInfo hd, .refl d⟩

theorem Continues.updateDialogInfo (s : Calls) (leg : Leg) {f : SipDialogInfo → SipDialogInfo}
    (hf : ∀ d : SipDialogInfo, d.Continues (f d)) : Continues s (s.updateDialogInfo leg f) := by
  intro l d' hd'
  change Function.update s.mapDialogInfo leg _ l = some d' at hd'
  by_cases heq : l = leg
  · rw [heq, Function.update_self] at hd'
    obtain ⟨d, hd, rfl⟩ := Option.map_eq_some_iff.1 hd'
    exact ⟨d, heq ▸ hd, hf d⟩
  · rw [Function.update_of_ne heq] at hd'
    exact ⟨d', hd', .refl d'⟩

theorem Continues.clearDialog (s : Calls) (leg : Leg) : Continues s (s.clearDialog leg) := by
  unfold Calls.clearDialog
  cases s.getAssociatedDialog leg with
  | none => exact .of_eq rfl
  | some other =>
    have hleg : Continues s (((s.destroyLeg leg).eraseDialog leg).eraseDialogInfo leg) :=
      Continues.trans (.of_eq (Controller.destroyLeg_info s leg))
        (.eraseDialogInfo ((s.destroyLeg leg).eraseDialog leg) leg)
    dsimp only
    split_ifs
    · exact hleg.trans (.of_eq rfl)
    · exact hleg.trans (Continues.trans (.of_eq (Controller.destroyLeg_info _ other)) (.eraseDialogInfo _ other))

theorem mem_insertDialogInfo {leg l : Leg} {d d' : SipDialogInfo}
    (hd' : d' ∈ (s.insertDialogInfo leg d).mapDialogInfo l) :
    d' ∈ s.mapDialogInfo l ∨ d' = d ∧ s.mapDialogInfo l = none := by
  change insertNew s.mapDialogInfo leg d l = some d' at hd'
  unfold insertNew at hd'
  split_ifs at hd' with hsome
  · exact .inl hd'
  · by_cases heq : l = leg
    · rw [heq, Function.update_self] at hd'
      rw [heq]
      exact .inr ⟨(Option.some.inj hd').symm, Option.not_isSome_iff_eq_none.1 hsome⟩
    · rw [Function.update_of_ne heq] at hd'
      exact .inl hd'

/-- `clearDialog` takes the dialog of its leg away. -/
theorem clearDialog_info_self {leg other : Leg} (hother : s.getAssociatedDialog leg = some other) :
    (s.clearDialog leg).mapDialogInfo leg = none := by
  have hleg : (((s.destroyLeg leg).eraseDialog leg).eraseDialogInfo leg).mapDialogInfo leg = none :=
    Function.update_self ..
  unfold Calls.clearDialog
  rw [hother]
  dsimp only
  split_ifs
  · exact hleg
  · refine Option.eq_none_iff_forall_not_mem.2 fun d hd => ?_
    have hd' := mem_eraseDialogInfo hd
    rw [Controller.destroyLeg_info, hleg] at hd'
    cases hd'

/-- A dialog may move to another leg. -/
theorem mem_moveDialog {leg newLeg l : Leg} {d' : SipDialogInfo}
    (hd' : d' ∈ (s.moveDialog leg newLeg).mapDialogInfo l) :
    d' ∈ s.mapDialogInfo l ∨ ∃ d ∈ s.mapDialogInfo leg, d.Continues d' := by
  unfold Calls.moveDialog at hd'
  cases hother : s.getAssociatedDialog leg with
  | none =>
    rw [hother] at hd'
    exact .inl hd'
  | some aLeg =>
    rw [hother] at hd'
    dsimp only at hd'
    have hinfo : ((addDialogs { s with dialogs := s.dialogs.eraseRight leg } aLeg newLeg).destroyLeg
        leg).mapDialogInfo = s.mapDialogInfo := Controller.destroyLeg_info _ leg
    generalize (addDialogs { s with dialogs := s.dialogs.eraseRight leg } aLeg newLeg).destroyLeg leg = u at hd' hinfo
    rw [← hinfo]
    cases hd : u.mapDialogInfo leg with
    | none =>
      rw [hd] at hd'
      exact .inl hd'
    | some d =>
      rw [hd] at hd'
      rcases mem_insertDialogInfo (mem_eraseDialogInfo hd') with hold | ⟨rfl, -⟩
      · exact .inl hold
      · exact .inr ⟨d, rfl, rfl, rfl, .inl rfl⟩

theorem mem_updateDialog {leg newLeg l : Leg} {d' : SipDialogInfo}
    (hd' : d' ∈ (s.updateDialog leg newLeg).mapDialogInfo l) :
    d' ∈ s.mapDialogInfo l ∨ ∃ d ∈ s.mapDialogInfo leg, d.Continues d' := by
  unfold Calls.updateDialog at hd'
  split_ifs at hd'
  · exact mem_moveDialog (s := s.fault (.assertion .updateDialogNull)) hd'
  · exact mem_moveDialog hd'

end

end Calls

namespace Controller

section

variable {c : Controller}

/-! ## New requests -/

/-- A request outside of a dialog opens at most one dialog. -/
inductive Opens (c : Controller) (sip : Request) (s' : Calls) : Prop
  | none (h : s'.mapDialogInfo = c.calls.mapDialogInfo)
  | one (leg : Leg) (p : SipDialogInfo) (htimer : p.timerSessionRefresh = Option.none)
      (hsecs : p.bOrigination = true ∧ p.nSessionTimer = c.sessionTimerSecs sip ∨
        p.bOrigination = false ∧ p.nSessionTimer = 0)
      (h : s'.mapDialogInfo = Calls.insertNew c.calls.mapDialogInfo leg p)

theorem opens_originate (irq : Irq) (sip : Request) (carrier uuid : Bytes) (pCdr : ℕ) (server : FsInstance)
    (nta : Creations) : c.Opens sip (c.originate irq sip carrier uuid pCdr server nta).1.calls := by
  unfold originate
  have hinfo := createOrigination_info c.calls irq nta (c.originationInvite sip carrier uuid server)
  rcases heq : createOrigination c.calls irq nta (c.originationInvite sip carrier uuid server) with
    ⟨s, _ | ⟨aLeg, orq, bLeg⟩⟩ <;> rw [heq] at hinfo
  · exact .none hinfo
  · refine .one aLeg _ ?_ ?_ (congrArg (fun m => Calls.insertNew m aLeg _) hinfo)
    · rfl
    · exact .inl ⟨rfl, rfl⟩

theorem Opens.congr {c' : Controller} {sip : Request} {s' : Calls}
    (hinfo : c'.calls.mapDialogInfo = c.calls.mapDialogInfo)
    (htimer : c'.nOriginationSessionTimer = c.nOriginationSessionTimer) (h : c'.Opens sip s') : c.Opens sip s' := by
  cases h with
  | none h => exact .none (h.trans hinfo)
  | one leg p hnone hsecs h =>
    refine .one leg p hnone ?_ (hinfo ▸ h)
    rwa [sessionTimerSecs, ← htimer]

theorem opens_processOriginationRequest (irq : Irq) (sip : Request) (carrier uuid : Bytes) (nta : Creations) :
    c.Opens sip (c.processOriginationRequest irq sip carrier uuid nta).1.calls := by
  unfold processOriginationRequest
  dsimp only
  have hselect : (c.originationCdr sip carrier uuid).2.selectServer.1.calls = c.calls ∧
      (c.originationCdr sip carrier uuid).2.selectServer.1.nOriginationSessionTimer = c.nOriginationSessionTimer :=
    ⟨rfl, rfl⟩
  rcases heq : (c.originationCdr sip carrier uuid).2.selectServer with ⟨c', _ | server⟩ <;> rw [heq] at hselect
  · exact .none (congrArg Calls.mapDialogInfo hselect.1)
  · exact (opens_originate irq sip carrier uuid _ server nta).congr (congrArg Calls.mapDialogInfo hselect.1) hselect.2

theorem generateTerminationRequest_info (t : ℕ) (irq : Irq) (nta : Creations) :
    (c.generateTerminationRequest t irq nta).1.calls.mapDialogInfo = c.calls.mapDialogInfo := by
  unfold generateTerminationRequest
  rcases c.attempts[t]? with _ | a
  · rfl
  · dsimp only
    have hinfo := createInvite_info c.calls irq nta.bLeg (orqGranted nta a) (terminationInvite a)
    rcases heq : c.calls.createInvite irq nta.bLeg (orqGranted nta a) (terminationInvite a) with ⟨s, _ | ⟨orq, bLeg⟩⟩ <;>
      rw [heq] at hinfo
    · exact hinfo
    · exact hinfo

theorem opens_terminateOn (irq : Irq) (aLeg : Leg) (sip : Request) (t : ℕ) (nta : Creations) :
    c.Opens sip (c.terminateOn irq aLeg sip t nta).1.calls := by
  have hinfo := c.generateTerminationRequest_info t irq nta
  unfold terminateOn
  rcases heq : c.generateTerminationRequest t irq nta with ⟨c', _ | ⟨orq, bLeg⟩⟩ <;> rw [heq] at hinfo
  · exact .none ((destroyLeg_info _ aLeg).trans hinfo)
  · refine .one bLeg _ ?_ ?_ (congrArg (fun m => Calls.insertNew m bLeg _) ((congrArg Calls.mapDialogInfo
      (require_calls _ _ _)).trans hinfo))
    · rfl
    · exact .inr ⟨rfl, rfl⟩

theorem opens_processTerminationRequest (irq : Irq) (sip : Request) (nta : Creations) :
    c.Opens sip (c.processTerminationRequest irq sip nta).1.calls := by
  unfold processTerminationRequest
  rcases c.firstRoute sip with _ | ⟨route, config⟩
  · exact .none rfl
  · refine Opens.congr ?_ ?_ (opens_terminateOn irq _ sip _ nta)
    · exact createLeg_info _ nta.aLeg
    · rfl

theorem opens_processInvite (irq : Irq) (sip : Request) (uuid : Bytes) (nta : Creations) :
    c.Opens sip (c.processInvite irq sip uuid nta).1.calls := by
  unfold processInvite
  dsimp only
  obtain ⟨absent, heq⟩ := c.require_frame .requestContactHost sip.contactHost?.isSome
  rw [heq]
  split
  · split_ifs
    · exact .none rfl
    · rw [countDown_calls]
      refine Opens.congr ?_ ?_ (opens_processOriginationRequest irq sip _ uuid nta) <;> rfl
  · rw [countDown_calls]
    refine Opens.congr ?_ ?_ (opens_processTerminationRequest irq sip nta) <;> rfl
  · exact .none rfl

theorem opens_requestOutsideDialog (sip : Request) (uuid : Bytes) (nta : Creations) :
    c.Opens sip (c.requestOutsideDialog sip uuid nta).calls := by
  unfold requestOutsideDialog processRequestOutsideDialog
  dsimp only
  have hend : ∀ r : Controller × ℤ, c.Opens sip r.1.calls →
      c.Opens sip (r.1.calls.legRecv ⟨c.calls.next⟩ sip.method r.2) := by
    intro r h
    cases h with
    | none h => exact .none ((legRecv_info _ _ _ _).trans h)
    | one leg p hnone hsecs h => exact .one leg p hnone hsecs ((legRecv_info _ _ _ _).trans h)
  refine hend _ ?_
  split
  · exact .none rfl
  · split
    · split
      · exact .none rfl
      · obtain ⟨absent, heq⟩ := (c.withCalls (c.calls.receive .null)).require_frame .requestContactHost
          sip.contactHost?.isSome
        rw [heq]
        split <;> exact .none rfl
    · exact .none rfl
    · refine Opens.congr ?_ ?_ (opens_processInvite _ sip uuid nta) <;> rfl
    · exact .none rfl
    · exact .none rfl
    · exact .none rfl

theorem Opens.mem {sip : Request} {s' : Calls} (h : c.Opens sip s') {l : Leg} {d' : SipDialogInfo}
    (hd' : d' ∈ s'.mapDialogInfo l) : d' ∈ c.calls.mapDialogInfo l ∨
      c.calls.mapDialogInfo l = Option.none ∧ d'.timerSessionRefresh = Option.none ∧
        (d'.bOrigination = true ∧ d'.nSessionTimer = c.sessionTimerSecs sip ∨
          d'.bOrigination = false ∧ d'.nSessionTimer = 0) := by
  cases h with
  | none h => exact .inl (h ▸ hd')
  | one leg p htimer hsecs h =>
    rw [h] at hd'
    rcases Calls.mem_insertDialogInfo (s := c.calls) hd' with hold | ⟨rfl, hnone⟩
    · exact .inl hold
    · exact .inr ⟨hnone, htimer, hsecs⟩

/-! ## The answer -/

/-- The dialog of an origination call that is answered. -/
def answeredDialog (sip : Response) (nta : Creations) (d : SipDialogInfo) : SipDialogInfo :=
  { d with
    localSdp := sip.sipPayload.getD []
    timerSessionRefresh :=
      if 0 < d.getSessionTimerSecs ∧ nta.timer then some (d.getSessionTimerSecs * 1000)
      else d.timerSessionRefresh }

/-- The 200 that is passed on, with the Session-Expires of the call. -/
def answerReply (c : Controller) (aLeg : Leg) (sip : Response) (nta : Creations) : Reply where
  status := sip.status
  payload := sip.sipPayload
  sessionExpires := (c.calls.mapDialogInfo aLeg).bind fun d => sessionExpires d nta

theorem processAnswer_dialog (c : Controller) (aLeg bLeg : Leg) (sip : Response) (nta : Creations) :
    (c.processAnswer aLeg bLeg (c.calls.mapDialogInfo aLeg) sip nta).controller.calls =
        (c.calls.record (.sent bLeg .ack)).updateDialogInfo aLeg (answeredDialog sip nta) ∧
      (c.processAnswer aLeg bLeg (c.calls.mapDialogInfo aLeg) sip nta).sessionExpires =
        (c.calls.mapDialogInfo aLeg).bind fun d => sessionExpires d nta := by
  unfold processAnswer
  cases hd : c.calls.mapDialogInfo aLeg with
  | none =>
    refine ⟨?_, rfl⟩
    simp only [withCalls_calls, require_calls, Calls.updateDialogInfo, Calls.record, hd, Option.map_none]
    rw [Function.update_eq_self_iff.2 hd.symm]
  | some d =>
    refine ⟨?_, rfl⟩
    dsimp only
    unfold startSessionTimer
    split_ifs with hstart
    · simp only [withCalls_calls, require_calls, Calls.updateDialogInfo, Calls.record, hd, Option.map_some,
        Function.update_self, Function.update_idem, answeredDialog, if_pos hstart]
      rfl
    · simp only [withCalls_calls, require_calls, Calls.updateDialogInfo, Calls.record, hd, Option.map_some,
        answeredDialog, if_neg hstart]

/-- **The answer to an origination call.** -/
theorem processInviteResponse_answer {orq : Orq} {sip : Response} (ht : c.attemptOf orq = none)
    (hstatus : sip.status = 200) (irq : Irq) (aLeg bLeg : Leg) (nta : Creations) :
    (c.processInviteResponse irq orq aLeg bLeg sip nta).calls.mapDialogInfo =
        Function.update c.calls.mapDialogInfo aLeg ((c.calls.mapDialogInfo aLeg).map (answeredDialog sip nta)) ∧
      (c.processInviteResponse irq orq aLeg bLeg sip nta).calls.log =
        .replied irq orq (c.answerReply aLeg sip nta) :: .sent bLeg .ack :: c.calls.log := by
  unfold processInviteResponse
  rw [show ((c.calls.mapTerminationAttempts orq).bind fun t => c.attempts[t]?.map fun a => (t, a)) =
    none from ht]
  dsimp only [Option.isSome_none, Option.map_none]
  simp only [Bool.false_eq_true, if_false]
  rw [if_neg (by omega), if_pos (by omega)]
  generalize hc' : (c.check .inviteResponseNoCdr _).reportFailure none sip.status = c'
  have hcalls : c'.calls = c.calls := by
    rw [← hc', reportFailure_calls, check_calls]
  unfold processFinalResponse
  rw [if_pos hstatus, ← hcalls]
  obtain ⟨hanswer, hexpires⟩ := c'.processAnswer_dialog aLeg bLeg sip nta
  have hflags : ∀ pDialog, (c'.processAnswer aLeg bLeg pDialog sip nta).bProxyResponse = true ∧
      (c'.processAnswer aLeg bLeg pDialog sip nta).bClearTransaction = true ∧
      (c'.processAnswer aLeg bLeg pDialog sip nta).bDestroyLegs = false := by
    intro pDialog
    cases pDialog <;> exact ⟨rfl, rfl, rfl⟩
  obtain ⟨hproxy, hclear, hdestroy⟩ := hflags (c'.calls.mapDialogInfo aLeg)
  unfold Decision.conclude
  simp only [reportFinalResponse_calls, hproxy, hclear, hdestroy, if_true, Bool.false_eq_true, if_false,
    withCalls_calls, proxyResponse_calls, Option.isSome_none, and_false, hanswer, hexpires]
  refine ⟨rfl, ?_⟩
  rw [proxyReply, Option.bind_none, Option.map_none, ite_self]
  exact congrArg (· :: _) (by rw [answerReply, hcalls])

/-! ## All events -/

/-- The leg whose session timer is started in an event. -/
def startedTimer? (c : Controller) : ControllerEvent → Option Leg
  | .inviteResponse orq sip nta =>
    let aLeg := c.calls.legFromIncoming (c.calls.getAssociatedIncoming orq)
    if c.Reached orq ∧ sip.status = 200 ∧ c.attemptOf orq = none ∧ nta.timer = true ∧
        ∃ d ∈ c.calls.mapDialogInfo aLeg, 0 < d.getSessionTimerSecs then some aLeg
    else none
  | _ => none

/-- Where a dialog that is there after an event comes from. -/
inductive DialogStep (c : Controller) (e : ControllerEvent) (l : Leg) (d' : SipDialogInfo) : Prop
  | kept (d : SipDialogInfo) (hd : d ∈ c.calls.mapDialogInfo l) (h : d.Continues d')
  | opened (sip : Request) (uuid : Bytes) (nta : Creations) (he : e = .requestOutsideDialog sip uuid nta)
      (hnone : c.calls.mapDialogInfo l = none) (htimer : d'.timerSessionRefresh = none)
      (hsecs : d'.bOrigination = true ∧ d'.nSessionTimer = c.sessionTimerSecs sip ∨
        d'.bOrigination = false ∧ d'.nSessionTimer = 0)
  | moved (bLeg : Leg) (d : SipDialogInfo) (hd : d ∈ c.calls.mapDialogInfo bLeg) (hb : d.bOrigination = false)
      (h : d.Continues d')
  | started (he : c.startedTimer? e = some l) (d : SipDialogInfo) (hd : d ∈ c.calls.mapDialogInfo l)
      (hsame : d'.bOrigination = d.bOrigination ∧ d'.nSessionTimer = d.nSessionTimer)
      (htimer : d'.timerSessionRefresh = some (d.getSessionTimerSecs * 1000))

theorem DialogStep.of_continues {e : ControllerEvent} {s' : Calls} (h : Calls.Continues c.calls s') {l : Leg}
    {d' : SipDialogInfo} (hd' : d' ∈ s'.mapDialogInfo l) : DialogStep c e l d' := by
  obtain ⟨d, hd, hcont⟩ := h l d' hd'
  exact .kept d hd hcont

/-- A response to the INVITE of an origination call. -/
theorem dialogStep_origination {orq : Orq} {sip : Response} {nta : Creations} (hreached : c.Reached orq)
    (ht : c.attemptOf orq = none) (hfinal : 200 ≤ sip.status) {l : Leg} {d' : SipDialogInfo}
    (hd' : d' ∈ (c.processInviteResponseInsideDialog orq sip nta).calls.mapDialogInfo l) :
    DialogStep c (.inviteResponse orq sip nta) l d' := by
  rw [inviteResponse_of_reached hreached] at hd'
  generalize hirq : c.calls.getAssociatedIncoming orq = irq at hd'
  generalize haLeg : c.calls.legFromIncoming irq = aLeg at hd'
  by_cases hstatus : sip.status = 200
  · rw [(processInviteResponse_answer ht hstatus irq aLeg _ nta).1] at hd'
    by_cases heq : l = aLeg
    · subst heq
      rw [Option.mem_def, Function.update_self] at hd'
      obtain ⟨d, hd, rfl⟩ := Option.map_eq_some_iff.1 hd'
      by_cases hstart : 0 < d.getSessionTimerSecs ∧ nta.timer
      · refine .started ?_ d hd ⟨rfl, rfl⟩ (if_pos hstart)
        subst hirq haLeg
        exact if_pos ⟨hreached, hstatus, ht, hstart.2, d, hd, hstart.1⟩
      · exact .kept d hd ⟨rfl, rfl, .inl (if_neg hstart)⟩
    · rw [Option.mem_def, Function.update_of_ne heq] at hd'
      exact .kept d' hd' (.refl d')
  · obtain ⟨reply, f, -, -, hcases, -⟩ := processInviteResponse_origination ht hfinal irq aLeg
      (c.calls.legFromOutgoing orq) nta
    obtain ⟨-, hcalls⟩ := hcases.resolve_left fun h => hstatus h.1
    rw [hcalls] at hd'
    exact .of_continues (Calls.Continues.trans (.of_eq rfl) (.clearDialog (c.calls.settle irq orq reply []) _)) hd'

/-- The dialog of a B leg is that of a termination call. -/
theorem bOrigination_of_bLeg (h : c.calls.Typed) {orq : Orq} (hreached : c.Reached orq)
    (hinvite : ∃ o ∈ c.calls.outgoing orq, o.callback = .responseToInvite) {d : SipDialogInfo}
    (hd : d ∈ c.calls.mapDialogInfo (c.calls.legFromOutgoing orq)) : d.bOrigination = false := by
  obtain ⟨hpair, ⟨o, ho, hleg⟩, -⟩ := hreached.spec
  obtain ⟨o', ho', hcallback⟩ := hinvite
  obtain rfl : o = o' := Option.mem_unique ho ho'
  obtain ⟨aLeg, -, hcall⟩ := h.invite _ orq hpair o ho hcallback
  have htype := (h.info _ d hd).2
  rw [← hleg, hcall.other.1] at htype
  by_contra hne
  rw [if_pos (by simpa using hne)] at htype
  cases htype

/-- A response to the INVITE of a termination call: only the dialog of its B leg moves. -/
theorem dialogStep_termination (h : c.calls.Typed) {orq : Orq} {sip : Response} {nta : Creations}
    {t : ℕ} {a : TerminationAttempt} (hreached : c.Reached orq)
    (hinvite : ∃ o ∈ c.calls.outgoing orq, o.callback = .responseToInvite) (ht : c.attemptOf orq = some (t, a))
    (hfinal : 200 ≤ sip.status) {l : Leg} {d' : SipDialogInfo}
    (hd' : d' ∈ (c.processInviteResponseInsideDialog orq sip nta).calls.mapDialogInfo l) :
    DialogStep c (.inviteResponse orq sip nta) l d' := by
  have hinbound := fun d hd => bOrigination_of_bLeg h hreached hinvite (d := d) hd
  rw [inviteResponse_of_reached hreached] at hd'
  have houtcome := processInviteResponse_outcome h.next_pos ht hfinal (c.calls.getAssociatedIncoming orq)
    (c.calls.legFromIncoming (c.calls.getAssociatedIncoming orq)) (c.calls.legFromOutgoing orq) nta
  generalize c.processInviteResponse _ orq _ _ sip nta = c' at hd' houtcome
  generalize c.calls.getAssociatedIncoming orq = irq at houtcome
  generalize c.calls.legFromOutgoing orq = bLeg at hinbound houtcome
  have hcleared : ∀ u : Calls, c'.calls = u.clearDialog bLeg → u.mapDialogInfo = c.calls.mapDialogInfo →
      DialogStep c (.inviteResponse orq sip nta) l d' := by
    intro u hcalls hu
    rw [hcalls] at hd'
    exact .of_continues (Calls.Continues.trans (.of_eq hu) (.clearDialog u bLeg)) hd'
  have hreplaced : ∀ orqNew bLegNew request n,
      c'.calls = c.calls.replaceAttempt irq orq orqNew bLeg bLegNew request t n →
      DialogStep c (.inviteResponse orq sip nta) l d' := by
    intro orqNew bLegNew request n hcalls
    rw [hcalls] at hd'
    rcases Calls.mem_updateDialog hd' with hold | ⟨d, hd, hcont⟩
    · exact .kept d' hold (.refl d')
    · exact .moved bLeg d hd (hinbound d hd) hcont
  cases houtcome with
  | answered reply f hstatus hreply hf hcalls hrecords =>
    rw [hcalls] at hd'
    exact .kept d' hd' (.refl d')
  | failed n reply g f hstatus hcrank hredirect hn hreply hg hf hcalls hrecords => exact hcleared _ hcalls rfl
  | crankbackFailed n reply f f' g k hcrank hnta hn hreply hf hf' hg hk hcalls hrecords => exact hcleared _ hcalls rfl
  | redirected request g hstatus hnta hg hcalls hrecords => exact hreplaced _ _ _ _ hcalls
  | crankedBack request f g k hcrank hnta hf hg hk hcalls hrecords => exact hreplaced _ _ _ _ hcalls

theorem dialogStep_inviteResponse (h : c.calls.Typed) {orq : Orq} {sip : Response} {nta : Creations}
    (hinvite : ∃ o ∈ c.calls.outgoing orq, o.callback = .responseToInvite) {l : Leg} {d' : SipDialogInfo}
    (hd' : d' ∈ (c.processInviteResponseInsideDialog orq sip nta).calls.mapDialogInfo l) :
    DialogStep c (.inviteResponse orq sip nta) l d' := by
  by_cases hreached : c.Reached orq
  · by_cases hfinal : 200 ≤ sip.status
    · cases ht : c.attemptOf orq with
      | none => exact dialogStep_origination hreached ht hfinal hd'
      | some t => exact dialogStep_termination h hreached hinvite ht hfinal hd'
    · rw [inviteResponse_of_reached hreached] at hd'
      obtain ⟨hcalls | ⟨reply, -, hcalls⟩, -⟩ := processInviteResponse_provisional (not_le.1 hfinal) c
        (c.calls.getAssociatedIncoming orq) orq (c.calls.legFromIncoming (c.calls.getAssociatedIncoming orq))
        (c.calls.legFromOutgoing orq) nta <;> rw [hcalls] at hd'
      · exact .kept d' hd' (.refl d')
      · exact .kept d' hd' (.refl d')
  · obtain ⟨a, heq⟩ := inviteResponse_of_not_reached hreached sip nta
    rw [heq] at hd'
    exact .kept d' hd' (.refl d')

theorem continues_processCancel {irq : Irq} (hcrash : ¬(c.processCancel irq).Crashed) :
    Calls.Continues c.calls (c.processCancel irq).calls := by
  rcases processCancel_cases hcrash with ⟨-, -, hcalls | ⟨-, -, hcalls⟩⟩ | ⟨-, -, hcalls, -⟩ <;> rw [hcalls]
  · exact .of_eq rfl
  · exact Calls.Continues.trans (.of_eq rfl) (.clearDialog (c.calls.record (.cancelled irq)) _)
  · exact Calls.Continues.trans (.of_eq rfl) (Calls.Continues.trans (.clearDialog (((c.calls.record
      (.cancelled irq)).destroyOutgoing (c.calls.getAssociatedOutgoing irq)).clearTransaction _) _) (.of_eq rfl))

theorem continues_requestInsideDialog {leg : Leg} {sip : Request} {nta : Creations}
    (hcrash : ¬(c.requestInsideDialog leg sip nta).Crashed) :
    Calls.Continues c.calls (c.requestInsideDialog leg sip nta).calls := by
  obtain ⟨other, u, -, hu, hcases⟩ := requestInsideDialog_cases hcrash
  have hinfo : u.mapDialogInfo = c.calls.mapDialogInfo := by rcases hu with rfl | rfl <;> rfl
  rcases hcases with ⟨-, ⟨i, status, n, -, -, -, hcalls⟩, -⟩ | ⟨-, ⟨i, status, n, -, -, -, hcalls⟩ |
    ⟨orq, request, n, -, -, hcalls⟩, -⟩ <;> rw [hcalls]
  · refine Calls.Continues.trans (.of_eq ?_) (Calls.Continues.trans (.clearDialog (if other = .null then u else
      u.record (.sent other .bye)) leg) (.of_eq rfl))
    split_ifs <;> exact hinfo
  · exact .of_eq hinfo
  · exact .of_eq hinfo

theorem continues_responseInsideDialog (orq : Orq) (sip : Response) :
    Calls.Continues c.calls (c.processResponseInsideDialog orq sip).calls := by
  obtain ⟨-, ⟨a, hcalls⟩ | ⟨-, u, reply, hu, hcalls⟩⟩ := c.responseInsideDialog_cases orq sip
  · rw [hcalls]
    exact .of_eq rfl
  · have hinfo : u.mapDialogInfo = c.calls.mapDialogInfo := by rcases hu with rfl | ⟨a, rfl⟩ <;> rfl
    rcases hcalls with hcalls | ⟨acks, hcalls⟩ <;> exact .of_eq ((congrArg Calls.mapDialogInfo hcalls).trans hinfo)

/-- The session timer expires: the call is cleared. -/
theorem sessionRefreshTimer_clears {leg : Leg} (hleg : c.calls.mapDialogInfo leg ≠ none)
    (hcrash : ¬(c.processSessionRefreshTimer leg).Crashed) :
    Calls.Continues c.calls (c.processSessionRefreshTimer leg).calls ∧
      (c.processSessionRefreshTimer leg).calls.mapDialogInfo leg = none := by
  obtain ⟨-, other, u, hother, hu, hcalls⟩ := sessionRefreshTimer_cases hleg hcrash
  have hinfo : u.mapDialogInfo = c.calls.mapDialogInfo := by rcases hu with rfl | ⟨a, rfl⟩ <;> rfl
  rw [hcalls]
  constructor
  · have hstop : Calls.Continues u (u.updateDialogInfo leg fun d => { d with timerSessionRefresh := none }) :=
      .updateDialogInfo u leg fun d => ⟨rfl, rfl, .inr rfl⟩
    exact Calls.Continues.trans (.of_eq hinfo) (hstop.trans (.clearDialog _ leg))
  · have hother' : (u.updateDialogInfo leg fun d => { d with timerSessionRefresh := none }).getAssociatedDialog leg =
        some other := by
      rcases hu with rfl | ⟨a, rfl⟩ <;> exact hother
    exact Calls.clearDialog_info_self hother'

/-- **What becomes of the dialogs in an event.** -/
theorem dialogStep_next (h : c.calls.Typed) {e : ControllerEvent} (he : machine.enabled c e) {l : Leg}
    {d' : SipDialogInfo} (hd' : d' ∈ (c.next e).calls.mapDialogInfo l) : DialogStep c e l d' := by
  obtain ⟨hpossible, hcrash⟩ := he
  cases e with
  | requestOutsideDialog sip uuid nta =>
    rcases (opens_requestOutsideDialog sip uuid nta).mem hd' with hold | ⟨hnone, htimer, hsecs⟩
    · exact .kept d' hold (.refl d')
    · exact .opened sip uuid nta rfl hnone htimer hsecs
  | inviteResponse orq sip nta =>
    obtain ⟨o, ho, hcallback, -⟩ := hpossible
    exact dialogStep_inviteResponse h ⟨o, ho, hcallback⟩ hd'
  | ackOrCancel irq method =>
    refine .of_continues ?_ hd'
    change Calls.Continues c.calls (c.processAckOrCancel irq method).calls
    have hcrash' : ¬(c.processAckOrCancel irq method).Crashed := hcrash
    unfold processAckOrCancel at hcrash' ⊢
    split_ifs at hcrash' ⊢
    · exact continues_processCancel hcrash'
    · exact .of_eq rfl
  | requestInsideDialog leg sip nta => exact .of_continues (continues_requestInsideDialog hcrash) hd'
  | responseInsideDialog orq sip => exact .of_continues (continues_responseInsideDialog orq sip) hd'
  | sessionRefreshTimer leg =>
    obtain ⟨d, hd, -⟩ := hpossible
    have hleg : c.calls.mapDialogInfo leg ≠ none := Option.ne_none_iff_exists'.2 ⟨d, hd⟩
    exact .of_continues (sessionRefreshTimer_clears hleg hcrash).1 hd'
  | retransmittedResponse leg sip =>
    refine .of_continues (.of_eq ?_) hd'
    change (c.processRetransmittedResponse leg sip).calls.mapDialogInfo = _
    obtain ⟨-, hcalls | hcalls⟩ := c.retransmittedResponse_cases leg sip <;> rw [hcalls]
    rfl
  | writeCdr connected => exact .kept d' hd' (.refl d')
  | clock now => exact .kept d' hd' (.refl d')
  | monitor fsMonitor => exact .kept d' hd' (.refl d')
  | resetTrunkStats => exact .kept d' hd' (.refl d')

/-- A 200 is passed on to the leg `a` and announces the Session-Expires `secs`. -/
def Announces (c : Controller) (e : ControllerEvent) (a : Leg) (secs : ℕ) : Prop :=
  ∃ irq orq bLeg reply, c.calls.legFromIncoming irq = a ∧
    (c.next e).calls.log = .replied irq orq reply :: .sent bLeg .ack :: c.calls.log ∧ reply.status = 200 ∧
    reply.sessionExpires = some (toString secs).toList

/-- **A session timer is started** with the seconds that are announced. -/
theorem startedTimer_spec {e : ControllerEvent} {a : Leg} (he : c.startedTimer? e = some a) :
    ∃ d ∈ c.calls.mapDialogInfo a, 0 < d.getSessionTimerSecs ∧ c.Announces e a d.getSessionTimerSecs.toNat ∧
      ∃ d', (c.next e).calls.mapDialogInfo a = some d' ∧
        d'.timerSessionRefresh = some (d.getSessionTimerSecs * 1000) := by
  cases e with
  | inviteResponse orq sip nta =>
    rw [startedTimer?] at he
    split_ifs at he with hstart
    obtain ⟨hreached, hstatus, ht, hgranted, d, hd, hpos⟩ := hstart
    obtain rfl := Option.some.inj he
    obtain ⟨hinfo, hlog⟩ := processInviteResponse_answer ht hstatus (c.calls.getAssociatedIncoming orq)
      (c.calls.legFromIncoming (c.calls.getAssociatedIncoming orq)) (c.calls.legFromOutgoing orq) nta
    rw [← inviteResponse_of_reached hreached] at hinfo hlog
    refine ⟨d, hd, hpos, ⟨_, orq, _, _, rfl, hlog, hstatus, ?_⟩, answeredDialog sip nta d, ?_, if_pos ⟨hpos, hgranted⟩⟩
    · rw [answerReply, hd, Option.bind_some, Ssp.Controller.sessionExpires, if_pos hpos, if_pos hgranted]
    · change (c.processInviteResponseInsideDialog orq sip nta).calls.mapDialogInfo _ = _
      rw [hinfo, Function.update_self, hd]
      rfl
  | _ => cases he

end

end Controller

/-! ## Calls in time -/

/-- The session timer that an INVITE and the configuration ask for, in seconds. -/
def Controller.askedSecs (c : Controller) (sip : Request) : ℕ :=
  max (sip.sipMinSe.getD 0).toNat c.nOriginationSessionTimer.toNat

/-- A re-INVITE or an UPDATE. -/
def Request.Refreshes (sip : Request) : Prop := sip.method = .invite ∨ sip.method = .other "UPDATE".toList

instance (sip : Request) : Decidable sip.Refreshes := inferInstanceAs (Decidable (_ ∨ _))

/-- The controller with a clock. -/
structure Timed where
  controller : Controller
  /-- The time, in milliseconds. -/
  time : ℕ := 0
  /-- What was asked for in the INVITE that opened the dialog of a leg. -/
  asked : Leg → ℕ := fun _ => 0
  /-- When the session timer of a leg was started, with the answer. -/
  started : Leg → ℕ := fun _ => 0
  /-- The legs on which a re-INVITE or UPDATE came in, and when. -/
  refreshes : List (Leg × ℕ) := []

inductive TimedEvent
  | elapse (ms : ℕ)
  | call (e : ControllerEvent)

namespace Timed

/-- What is asked for, after an event: a request may open the dialog of a leg. -/
def ask (x : Timed) (e : ControllerEvent) (a : Leg) : ℕ :=
  match e with
  | .requestOutsideDialog sip _ _ =>
    if x.controller.calls.mapDialogInfo a = none ∧ (x.controller.next e).calls.mapDialogInfo a ≠ none then
      x.controller.askedSecs sip
    else x.asked a
  | _ => x.asked a

def start (x : Timed) (e : ControllerEvent) : Leg → ℕ :=
  match x.controller.startedTimer? e with
  | some a => Function.update x.started a x.time
  | none => x.started

def refresh (x : Timed) : ControllerEvent → List (Leg × ℕ)
  | .requestInsideDialog leg sip _ => if sip.Refreshes then (leg, x.time) :: x.refreshes else x.refreshes
  | _ => x.refreshes

def next (x : Timed) : TimedEvent → Timed
  | .elapse ms => { x with time := x.time + ms }
  | .call e =>
    { x with
      controller := x.controller.next e, asked := x.ask e, started := x.start e, refreshes := x.refresh e }

/-- A timer expires when it is due, or later. -/
def Due (x : Timed) : ControllerEvent → Prop
  | .sessionRefreshTimer a =>
    ∃ d ∈ x.controller.calls.mapDialogInfo a, ∃ ms ∈ d.timerSessionRefresh, x.started a + ms.toNat ≤ x.time
  | _ => True

def machine : Machine Timed TimedEvent where
  init := { x | x.controller.Initial ∧ x.refreshes = [] }
  enabled x
    | .elapse _ => True
    | .call e => Controller.machine.enabled x.controller e ∧ x.Due e
  next := next

instance (x : Timed) : (e : ControllerEvent) → Decidable (x.Due e)
  | .sessionRefreshTimer a => inferInstanceAs (Decidable (∃ d ∈ x.controller.calls.mapDialogInfo a,
      ∃ ms ∈ d.timerSessionRefresh, x.started a + ms.toNat ≤ x.time))
  | .requestOutsideDialog _ _ _ | .inviteResponse _ _ _ | .ackOrCancel _ _ | .requestInsideDialog _ _ _
  | .responseInsideDialog _ _ | .retransmittedResponse _ _ | .writeCdr _ | .clock _ | .monitor _
  | .resetTrunkStats => inferInstanceAs (Decidable True)

instance (x : Timed) : (e : TimedEvent) → Decidable (machine.enabled x e)
  | .elapse _ => inferInstanceAs (Decidable True)
  | .call e => inferInstanceAs (Decidable (Controller.machine.enabled x.controller e ∧ x.Due e))

/-- The dialog of a leg that was asked for `secs` seconds. -/
structure Scheduled (secs : ℕ) (d : SipDialogInfo) : Prop where
  inbound : d.bOrigination = false → d.nSessionTimer = 0
  asked : d.nSessionTimer ≠ 0 → d.nSessionTimer.toNat = secs
  timer : ∀ ms ∈ d.timerSessionRefresh, ms = d.getSessionTimerSecs * 1000

structure Inv (x : Timed) : Prop where
  typed : x.controller.calls.Typed
  dialogs : ∀ a, ∀ d ∈ x.controller.calls.mapDialogInfo a, Scheduled (x.asked a) d

section

variable {x : Timed} {d d' : SipDialogInfo} {secs : ℕ}

theorem Scheduled.continues (h : Scheduled secs d) (hcont : d.Continues d') : Scheduled secs d' := by
  refine ⟨fun hb => ?_, fun hne => ?_, fun ms hms => ?_⟩
  · rw [hcont.nSessionTimer]
    exact h.inbound (hcont.bOrigination ▸ hb)
  · rw [hcont.nSessionTimer] at hne ⊢
    exact h.asked hne
  · rw [SipDialogInfo.getSessionTimerSecs, hcont.nSessionTimer]
    rcases hcont.timer with heq | hnone
    · exact h.timer ms (heq ▸ hms)
    · rw [hnone] at hms
      cases hms

/-- A dialog without a session timer. -/
theorem scheduled_of_zero (hzero : d.nSessionTimer = 0) (htimer : ∀ ms ∈ d.timerSessionRefresh, ms =
    d.getSessionTimerSecs * 1000) : Scheduled secs d :=
  ⟨fun _ => hzero, fun hne => absurd hzero hne, htimer⟩

theorem toNat_max (m n : UInt64) : (max m n).toNat = max m.toNat n.toNat := by
  change (if m ≤ n then n else m).toNat = _
  split_ifs with hle
  · exact (max_eq_right (UInt64.le_iff_toNat_le.1 hle)).symm
  · exact (max_eq_left (le_of_not_ge fun h => hle (UInt64.le_iff_toNat_le.2 h))).symm

/-- What is asked for, where a session timer is wanted at all. -/
theorem toNat_sessionTimerSecs {c : Controller} {sip : Request} (h : c.sessionTimerSecs sip ≠ 0) :
    (c.sessionTimerSecs sip).toNat = c.askedSecs sip := by
  unfold Controller.sessionTimerSecs at h ⊢
  split_ifs at h ⊢
  · exact toNat_max _ _
  · exact absurd rfl h

theorem ask_of_mem {a : Leg} (hd : d ∈ x.controller.calls.mapDialogInfo a) (e : ControllerEvent) :
    x.ask e a = x.asked a := by
  unfold ask
  split
  · rw [if_neg]
    rintro ⟨hnone, -⟩
    rw [hnone] at hd
    cases hd
  · rfl

theorem Inv.next (h : x.Inv) {e : TimedEvent} (he : machine.enabled x e) : (x.next e).Inv := by
  cases e with
  | elapse ms => exact ⟨h.typed, h.dialogs⟩
  | call e =>
    refine ⟨Controller.typed_next h.typed he.1, fun a d' hd' => ?_⟩
    change Scheduled (x.ask e a) d'
    cases Controller.dialogStep_next h.typed he.1 hd' with
    | kept d hd hcont =>
      rw [ask_of_mem hd]
      exact (h.dialogs a d hd).continues hcont
    | opened sip uuid nta heq hnone htimer hsecs =>
      subst heq
      have hask : x.ask (.requestOutsideDialog sip uuid nta) a = x.controller.askedSecs sip :=
        if_pos ⟨hnone, Option.ne_none_iff_exists'.2 ⟨d', hd'⟩⟩
      have hstopped : ∀ ms ∈ d'.timerSessionRefresh, ms = d'.getSessionTimerSecs * 1000 := by simp [htimer]
      rcases hsecs with ⟨hb, hsecs⟩ | ⟨hb, hzero⟩
      · refine ⟨fun hb' => ?_, fun hne => ?_, hstopped⟩
        · rw [hb] at hb'
          cases hb'
        · rw [hsecs] at hne ⊢
          rw [hask, toNat_sessionTimerSecs hne]
      · exact scheduled_of_zero hzero hstopped
    | moved bLeg d hd hb hcont =>
      have hd' := (h.dialogs bLeg d hd).continues hcont
      exact scheduled_of_zero (hd'.inbound (hcont.bOrigination.trans hb)) hd'.timer
    | started heq d hd hsame htimer =>
      obtain ⟨hb, hsecs⟩ := hsame
      have hold := h.dialogs a d hd
      rw [ask_of_mem hd]
      refine ⟨fun hb' => ?_, fun hne => ?_, fun ms hms => ?_⟩
      · rw [hsecs]
        exact hold.inbound (hb ▸ hb')
      · rw [hsecs] at hne ⊢
        exact hold.asked hne
      · rw [htimer] at hms
        rw [SipDialogInfo.getSessionTimerSecs, hsecs]
        exact (Option.some.inj hms).symm

theorem inv_of_init (hx : x ∈ machine.init) : x.Inv := by
  refine ⟨hx.1.calls ▸ Calls.typed_empty, fun a d hd => ?_⟩
  rw [hx.1.calls] at hd
  cases hd

theorem inv_of_reachable (hx : machine.Reachable x) : x.Inv :=
  hx.invariant (fun _ => inv_of_init) fun _ _ h he => h.next he

/-! ### How long a session timer runs -/

/-- The timer that an event starts for `a` runs for `secs` seconds, which the answer announces. -/
def StartsExactly (c : Controller) (e : ControllerEvent) (a : Leg) (secs : ℕ) : Prop :=
  (∃ d ∈ (c.next e).calls.mapDialogInfo a, ∃ ms ∈ d.timerSessionRefresh, ms.toNat = 1000 * secs) ∧
    c.Announces e a secs

/-- The milliseconds of a timer are those of its seconds as long as they do not wrap around. -/
theorem toNat_mul_1000 (secs : UInt32) : (secs * 1000).toNat = 1000 * secs.toNat % 2 ^ 32 := by
  rw [UInt32.toNat_mul, Nat.mul_comm]
  rfl

/-- **A session timer runs for exactly the seconds that were asked for and are announced** if they are at
    most 4294967, and only then. -/
theorem started_exactly_iff (hx : machine.Reachable x) {e : ControllerEvent} {a : Leg}
    (ha : x.controller.startedTimer? e = some a) :
    StartsExactly x.controller e a (x.asked a) ↔ x.asked a ≤ 4294967 := by
  obtain ⟨d, hd, hpos, hannounces, d', hd', htimer⟩ := Controller.startedTimer_spec ha
  have hne : d.nSessionTimer ≠ 0 := by
    intro hzero
    rw [SipDialogInfo.getSessionTimerSecs, hzero] at hpos
    exact absurd hpos (by decide)
  have hasked := ((inv_of_reachable hx).dialogs a d hd).asked hne
  have hsecs : d.getSessionTimerSecs.toNat = x.asked a % 2 ^ 32 := by
    rw [← hasked]
    rfl
  constructor
  · rintro ⟨⟨d'', hd'', ms, hms, hexact⟩, -⟩
    have hlt := ms.toNat_lt
    omega
  · intro hle
    rw [Nat.mod_eq_of_lt (by omega)] at hsecs
    refine ⟨⟨d', hd', _, htimer, ?_⟩, hsecs ▸ hannounces⟩
    rw [toNat_mul_1000, hsecs]
    omega

/-! ### Calls that are refreshed -/

/-- The timer clears no call that was refreshed in the seconds of its session timer before. -/
def Survives (x : Timed) : TimedEvent → Prop
  | .call (.sessionRefreshTimer a) => ∀ d ∈ x.controller.calls.mapDialogInfo a,
    (x.controller.next (.sessionRefreshTimer a)).calls.mapDialogInfo a = none →
      ∀ r, (a, r) ∈ x.refreshes → r + 1000 * d.getSessionTimerSecs.toNat ≤ x.time
  | _ => True

/-- The milliseconds that a timer of `secs` seconds loses when they wrap around. -/
def wrapped (secs : UInt32) : ℕ := 2 ^ 32 * (1000 * secs.toNat / 2 ^ 32)

theorem toNat_mul_add_wrapped (secs : UInt32) : (secs * 1000).toNat + wrapped secs = 1000 * secs.toNat := by
  rw [toNat_mul_1000]
  exact Nat.mod_add_div _ _

/-- The call of a timer that expires was not refreshed after its answer, when the timer was started;
    where the timer is too short, nor in the time that it lost. -/
def Unrefreshed (x : Timed) : TimedEvent → Prop
  | .call (.sessionRefreshTimer a) => ∀ d ∈ x.controller.calls.mapDialogInfo a, ∀ r, (a, r) ∈ x.refreshes →
      r + wrapped d.getSessionTimerSecs ≤ x.started a
  | _ => True

/-- A timer that expires is not late. -/
def Punctual (x : Timed) : TimedEvent → Prop
  | .call (.sessionRefreshTimer a) => ∀ d ∈ x.controller.calls.mapDialogInfo a, ∀ ms ∈ d.timerSessionRefresh,
      x.time = x.started a + ms.toNat
  | _ => True

/-- A timer that is late leaves more time for the calls that were not refreshed. -/
theorem survives_of_unrefreshed (h : x.Inv) {e : TimedEvent} (he : machine.enabled x e) (hu : x.Unrefreshed e) :
    x.Survives e := by
  cases e with
  | elapse ms => trivial
  | call e =>
    cases e with
    | sessionRefreshTimer a =>
      obtain ⟨-, d, hd, ms, hms, hdue⟩ := he
      have htimer := (h.dialogs a d hd).timer ms hms
      have hsecs := toNat_mul_add_wrapped d.getSessionTimerSecs
      intro d₁ hd₁ _ r hr
      obtain rfl := Option.mem_unique hd hd₁
      have hbefore := hu d hd r hr
      rw [htimer] at hdue
      omega
    | _ => trivial

/-- The timer clears its call whatever became of it since the answer. -/
theorem unrefreshed_of_survives (h : x.Inv) {e : TimedEvent} (he : machine.enabled x e) (hp : x.Punctual e)
    (hs : x.Survives e) : x.Unrefreshed e := by
  cases e with
  | elapse ms => trivial
  | call e =>
    cases e with
    | sessionRefreshTimer a =>
      obtain ⟨⟨-, hcrash⟩, d, hd, ms, hms, -⟩ := he
      have hleg : x.controller.calls.mapDialogInfo a ≠ none := Option.ne_none_iff_exists'.2 ⟨d, hd⟩
      have hclears := (Controller.sessionRefreshTimer_clears hleg hcrash).2
      have htimer := (h.dialogs a d hd).timer ms hms
      have hsecs := toNat_mul_add_wrapped d.getSessionTimerSecs
      have htime := hp d hd ms hms
      intro d₁ hd₁ r hr
      obtain rfl := Option.mem_unique hd hd₁
      have hlater := hs d hd hclears r hr
      rw [htimer] at htime
      omega
    | _ => trivial

/-- **No call that was refreshed is cleared** as long as no call is refreshed after its answer. Where the
    timers are not late that is all there is to it: nothing in the controller starts a timer again. -/
theorem survives_iff {es : List TimedEvent} (hrun : machine.IsRun x es) :
    (machine.Along Unrefreshed x es → machine.Along Survives x es) ∧
      (machine.Along Punctual x es → machine.Along Survives x es → machine.Along Unrefreshed x es) := by
  have hinv := inv_of_init hrun.1
  constructor
  · exact Machine.Along.imp (fun _ _ h he => h.next he) (fun _ _ h he => survives_of_unrefreshed h he) hinv hrun.2
  · intro hpunctual hsurvives
    exact Machine.Along.imp (fun _ _ h he => h.next he) (fun _ _ h he hps => unrefreshed_of_survives h he hps.1 hps.2)
      hinv hrun.2 (hpunctual.and hsurvives)

end

/-! ### An example -/

/-- The controller of the example, with session timers of at least 90 seconds. -/
def exampleTimed : Timed where
  controller := { Controller.exampleStart with nOriginationSessionTimer := 90 }

theorem exampleTimed_init : exampleTimed ∈ machine.init := ⟨{ Controller.exampleStart_initial with }, rfl⟩

/-- A call that wants a session timer: the transactions are `1` and `4`, the legs `2` and `3`. -/
def exampleTimedInvite (minSe : Option UInt64) : ControllerEvent :=
  .requestOutsideDialog { Controller.exampleInvite with sipSessionExpires := true, sipMinSe := minSe } ['u'] {}

/-- It is answered. -/
def exampleTimedAnswer : ControllerEvent :=
  .inviteResponse ⟨4⟩ { status := 200, sipContact := some {}, sipPayload := some [] } {}

/-- The call with a Min-SE. -/
def exampleTimedCall (minSe : Option UInt64) : Timed := exampleTimed.next (.call (exampleTimedInvite minSe))

theorem exampleTimedCall_reachable {minSe : Option UInt64}
    (h : machine.enabled exampleTimed (.call (exampleTimedInvite minSe))) :
    machine.Reachable (exampleTimedCall minSe) :=
  .step (.init exampleTimed_init) h

theorem started_exactly_exampleTimed : StartsExactly (exampleTimedCall none).controller exampleTimedAnswer ⟨2⟩
    ((exampleTimedCall none).asked ⟨2⟩) ↔ (exampleTimedCall none).asked ⟨2⟩ ≤ 4294967 :=
  started_exactly_iff (exampleTimedCall_reachable (by decide +kernel)) (by decide +kernel)

/-- With a Min-SE of 4294968 seconds the timer runs for 704 milliseconds. -/
theorem exampleTimed_wraps :
    machine.Reachable (exampleTimedCall (some 4294968)) ∧
      machine.enabled (exampleTimedCall (some 4294968)) (.call exampleTimedAnswer) ∧
      (exampleTimedCall (some 4294968)).controller.startedTimer? exampleTimedAnswer = some ⟨2⟩ ∧
      (exampleTimedCall (some 4294968)).asked ⟨2⟩ = 4294968 ∧
      ¬StartsExactly (exampleTimedCall (some 4294968)).controller exampleTimedAnswer ⟨2⟩ 4294968 := by
  refine ⟨exampleTimedCall_reachable (by decide +kernel), by decide +kernel, by decide +kernel, by decide +kernel, ?_⟩
  have htimer : (((exampleTimedCall (some 4294968)).controller.next exampleTimedAnswer).calls.mapDialogInfo
      ⟨2⟩).bind (·.timerSessionRefresh) = some 704 := by decide +kernel
  rintro ⟨⟨d, hd, ms, hms, hexact⟩, -⟩
  rw [hd, Option.bind_some, hms] at htimer
  rw [Option.some.inj htimer] at hexact
  exact absurd hexact (by decide)

/-- A call that is answered and not refreshed. -/
def exampleUnrefreshed : List TimedEvent :=
  [.call (exampleTimedInvite none), .call exampleTimedAnswer, .elapse 90000, .call (.sessionRefreshTimer ⟨2⟩)]

theorem survives_exampleUnrefreshed : machine.Along Survives exampleTimed exampleUnrefreshed := by
  have hnone : (machine.exec exampleTimed (exampleUnrefreshed.take 3)).refreshes = [] := by decide +kernel
  refine (survives_iff ⟨exampleTimed_init, by decide +kernel⟩).1 ⟨trivial, trivial, trivial, ?_, trivial⟩
  intro d _ r hr
  exact absurd (hnone ▸ hr) List.not_mem_nil

/-- A call that is refreshed after a minute, up to the time when its session timer is due. -/
def exampleRefreshed : List TimedEvent :=
  [.call (exampleTimedInvite none), .call exampleTimedAnswer, .elapse 60000,
    .call (.requestInsideDialog ⟨2⟩ { method := .invite } {}), .elapse 30000]

/-- It is cleared half a minute after it was refreshed. -/
theorem exampleRefreshed_cleared :
    machine.IsRun exampleTimed (exampleRefreshed ++ [.call (.sessionRefreshTimer ⟨2⟩)]) ∧
      ¬machine.Along Survives exampleTimed (exampleRefreshed ++ [.call (.sessionRefreshTimer ⟨2⟩)]) := by
  refine ⟨⟨exampleTimed_init, by decide +kernel⟩, fun h => ?_⟩
  obtain ⟨-, hsurvives, -⟩ := Machine.along_append_iff.1 h
  obtain ⟨d, hd, hsecs⟩ : ∃ d ∈ (machine.exec exampleTimed exampleRefreshed).controller.calls.mapDialogInfo ⟨2⟩,
      d.getSessionTimerSecs = 90 := by decide +kernel
  have hlater := hsurvives d hd (by decide +kernel) 60000 (by decide +kernel)
  rw [hsecs] at hlater
  exact absurd hlater (by decide +kernel)

end Timed

end Ssp
