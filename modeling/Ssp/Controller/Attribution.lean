import Ssp.Controller.Accounts

/-!
# Which INVITE a report is about

Each `termination_attempt` record that is posted is to describe an INVITE: when it was sent, its
Call-ID, its carrier and the carrier's address, the status of its final response and the time of it
(`Auditing.Describes`). To compare, `Auditing` remembers the INVITEs as they were sent and their
final responses; nothing reads that.

The record of a call is made for its first INVITE, and `tmStart` stays what it was then. So a report
is right if its INVITE was sent when the first one of the call was, and if the record has not been
changed already for a crankback that then fails (`Controller.Truthful`). `attributed_iff`: in a
run, all reports that are posted describe an INVITE exactly if all reports made are of this kind.
-/

namespace Ssp

/-- An INVITE of a termination call as it was sent, and when the first one of the call was. -/
structure Invite where
  details : Details
  tmCall : ℕ
  deriving DecidableEq

/-- The final response to an INVITE; if it was cancelled, that is a 487. -/
structure Final where
  orq : Orq
  status : ℤ
  time : ℕ
  deriving DecidableEq

namespace Invite

/-- What the record of the call says while the INVITE is waited for. -/
def recorded (i : Invite) : Details := { i.details with tmStart := i.tmCall }

def account (i : Invite) : Details × Bytes × Bytes :=
  (i.recorded, i.details.terminatingCarrier, i.details.terminatingCarrierAddress)

theorem recorded_eq_iff (i : Invite) : i.recorded = i.details ↔ i.details.tmStart = i.tmCall := by
  constructor
  · intro h
    exact (congrArg Details.tmStart h).symm
  · intro h
    rw [recorded, ← h]

end Invite

namespace Controller

/-- The final response that an event brings. -/
def final (c : Controller) : ControllerEvent → Option Final
  | .inviteResponse orq sip _ => if 200 ≤ sip.status then some ⟨orq, sip.status, c.now⟩ else none
  | .ackOrCancel irq method =>
    if method = .cancel then some ⟨c.calls.getAssociatedOutgoing irq, 487, c.now⟩ else none
  | _ => none

/-- What an event reports about the INVITE `i` is right: nothing is reported, or the INVITE was sent
    when the first one of the call was, and a crankback that fails was to the same trunk. -/
def Truthful (c : Controller) (a : TerminationAttempt) (i : Invite) : ControllerEvent → Prop
  | .inviteResponse _ sip nta =>
    ¬((300 ≤ sip.status ∧ sip.status ≤ 399) ∧ Granted nta) → i.details.tmStart = i.tmCall ∧
      (c.CranksBack a sip ∧ ¬Granted nta → ∀ route config,
        c.config.getTerminationRouteForAltCarrier a.carrier = some (route, config) →
          route.carrier = i.details.terminatingCarrier ∧
            route.trunk.text = i.details.terminatingCarrierAddress)
  | _ => i.details.tmStart = i.tmCall

section

variable {c : Controller} {a : TerminationAttempt} {i : Invite} {cdr : CdrInfo} {e : ControllerEvent}

theorem Ends.final {orq : Orq} {t : ℕ} {status : ℤ} (h : c.Ends orq t a status e) :
    c.final e = some ⟨orq, status, c.now⟩ := by
  cases e with
  | inviteResponse orq' sip nta =>
    obtain ⟨rfl, rfl, hfinal, -⟩ := h
    exact if_pos hfinal
  | ackOrCancel irq method =>
    obtain ⟨hmethod, rfl, -, -, rfl, -⟩ := h
    exact if_pos hmethod
  | _ => exact h.elim

/-- The record that was changed for another trunk says the same only if it is the same trunk. -/
theorem setRoute_details_iff (hcdr : cdr.details = i.recorded) (route : Route) :
    (setRoute route cdr).details = i.details ↔ i.details.tmStart = i.tmCall ∧
      route.carrier = i.details.terminatingCarrier ∧ route.trunk.text = i.details.terminatingCarrierAddress := by
  have hstart : cdr.tmStart = i.tmCall := congrArg Details.tmStart hcdr
  have hdleg : cdr.dlegCallId = i.details.dlegCallId := congrArg Details.dlegCallId hcdr
  constructor
  · intro h
    exact ⟨(congrArg Details.tmStart h).symm.trans hstart, congrArg Details.terminatingCarrier h,
      congrArg Details.terminatingCarrierAddress h⟩
  · rintro ⟨h, hcarrier, haddress⟩
    change (⟨cdr.tmStart, cdr.dlegCallId, route.carrier, route.trunk.text⟩ : Details) = _
    rw [hstart, hdleg, ← h, hcarrier, haddress]

theorem reported_dlegCallId {r : CdrInfo} (hr : r ∈ c.reported a cdr e) : r.dlegCallId = cdr.dlegCallId := by
  cases e with
  | inviteResponse orq sip nta =>
    unfold reported at hr
    dsimp only at hr
    split_ifs at hr
    · exact absurd hr List.not_mem_nil
    · rcases List.mem_cons.1 hr with rfl | hr
      · rfl
      · obtain ⟨route, -, rfl⟩ := Option.map_eq_some_iff.1 (Option.mem_toList.1 hr)
        rfl
    · rw [List.mem_singleton.1 hr]
  | _ => rw [List.mem_singleton.1 hr]

/-- **The reports are right** exactly if they are truthful. -/
theorem reported_iff (hcdr : cdr.details = i.recorded) :
    (∀ r ∈ c.reported a cdr e, r.details = i.details) ↔ c.Truthful a i e := by
  have hfirst : cdr.details = i.details ↔ i.details.tmStart = i.tmCall := hcdr ▸ i.recorded_eq_iff
  have hone : (∀ r ∈ [cdr], r.details = i.details) ↔ i.details.tmStart = i.tmCall := by
    rw [List.forall_mem_singleton, hfirst]
  cases e with
  | inviteResponse orq sip nta =>
    unfold reported Truthful
    dsimp only
    split_ifs with hredirect hcrank
    · exact iff_of_true (fun r hr => absurd hr List.not_mem_nil) fun hnot => absurd hredirect hnot
    · rw [List.forall_mem_cons, hfirst, imp_iff_right hredirect, imp_iff_right hcrank]
      refine and_congr_right fun hstart => ?_
      rcases hroute : c.config.getTerminationRouteForAltCarrier a.carrier with _ | ⟨route, config⟩
      · exact absurd hroute hcrank.1.2.2
      · simp only [Option.map_some, Option.toList_some, List.forall_mem_singleton, setRoute_details_iff hcdr,
          hstart, true_and]
        constructor
        · rintro h _ _ ⟨⟩
          exact h
        · exact fun h => h route config rfl
    · rw [hone, imp_iff_right hredirect]
      exact (and_iff_left fun h => absurd h hcrank).symm
  | _ => exact hone

end

end Controller

/-- The controller, with the INVITEs of its termination calls as they were sent, and the final
    responses to them. -/
structure Auditing extends Reporting where
  sent : Orq → Option Invite := fun _ => none
  finals : List Final := []

namespace Auditing

/-- The record describes an INVITE: as it was sent, and how and when it ended. -/
def Describes (x : Auditing) (r : CdrInfo) : Prop :=
  ∃ orq i f, x.sent orq = some i ∧ r.details = i.details ∧ f ∈ x.finals ∧ f.orq = orq ∧
    r.sipStatus = UInt32.ofInt f.status ∧ r.finalTime = f.time

/-- All reports that were posted describe an INVITE. -/
def Attributed (x : Auditing) : Prop := ∀ r ∈ x.posted, r.cdrType = .terminationAttempt → x.Describes r

/-- When the call began that an INVITE of the event is for. -/
def callStart (x : Auditing) : ControllerEvent → ℕ
  | .inviteResponse orq _ _ => (x.sent orq).elim x.controller.now (·.tmCall)
  | _ => x.controller.now

/-- The INVITE that an event sends for an attempt. -/
def invite (x : Auditing) (e : ControllerEvent) (a : TerminationAttempt) : Invite where
  details := ⟨x.controller.now, e.callId, a.carrier, a.sipTrunk⟩
  tmCall := x.callStart e

/-- An event; a client transaction with an attempt that was not there before is a new INVITE. -/
def next (x : Auditing) (e : ControllerEvent) : Auditing where
  toReporting := x.toReporting.next e
  sent orq :=
    if x.controller.calls.outgoing orq |>.isNone then
      ((x.controller.next e).attemptOf orq).elim (x.sent orq) fun p => some (x.invite e p.2)
    else x.sent orq
  finals := x.finals ++ (x.controller.final e).toList

/-- The runs with a writer. -/
def machine : Machine Auditing ControllerEvent where
  init := { x | x.toReporting ∈ Reporting.machine.init ∧ (x.sent = fun _ => none) ∧ x.finals = [] }
  enabled x e := Reporting.machine.enabled x.toReporting e
  next := next

/-- What the event reports is right. -/
def Accurate (x : Auditing) (e : ControllerEvent) : Prop :=
  ∀ orq t a status i, x.controller.Ends orq t a status e → x.sent orq = some i → x.controller.Truthful a i e

/-- What holds in every run: the record of a call says of the INVITE that is waited for what there is
    to say, but for the time. -/
structure Inv (x : Auditing) : Prop extends Reporting.Inv x.toReporting where
  invited : ∀ orq, x.invited orq = (x.sent orq).map (·.details.dlegCallId)
  known : ∀ orq t, x.controller.calls.mapTerminationAttempts orq = some t →
    ∃ i, x.sent orq = some i ∧ x.controller.records.seen account t = some i.account

section

variable {x : Auditing} {e : ControllerEvent} {orq : Orq} {t : ℕ} {a : TerminationAttempt} {status : ℤ}
  {i : Invite}

/-- An INVITE that was sent stays as it was. -/
theorem Inv.sent_next (h : x.Inv) (hsent : x.sent orq = some i) : (x.next e).sent orq = some i := by
  have hinvited : x.invited orq ≠ none := by
    rw [h.invited, hsent]
    exact Option.some_ne_none _
  obtain ⟨o, ho⟩ := Option.ne_none_iff_exists'.1 (h.outgoing_ne_none hinvited)
  change (if _ then _ else _ : Option Invite) = _
  rw [ho]
  exact hsent

theorem sent_next_of_new (hnone : x.controller.calls.outgoing orq = none)
    (ha : (x.controller.next e).attemptOf orq = some (t, a)) : (x.next e).sent orq = some (x.invite e a) := by
  change (if _ then _ else _ : Option Invite) = _
  rw [hnone, ha]
  rfl

theorem Inv.describes_next (h : x.Inv) {r : CdrInfo} (hr : x.Describes r) : (x.next e).Describes r := by
  obtain ⟨orq, i, f, hsent, hdetails, hf, hrest⟩ := hr
  exact ⟨orq, i, f, h.sent_next hsent, hdetails, List.mem_append_left _ hf, hrest⟩

/-- Only the new reports matter. -/
theorem Inv.attributed_next (h : x.Inv) (hattributed : x.Attributed) {new : List CdrInfo}
    (hposted : (x.next e).posted = x.posted ++ new) :
    (x.next e).Attributed ↔ ∀ r ∈ new, r.cdrType = .terminationAttempt → (x.next e).Describes r := by
  unfold Attributed
  rw [hposted]
  constructor
  · exact fun hall r hr => hall r (List.mem_append_right _ hr)
  · intro hnew r hr htype
    rcases List.mem_append.1 hr with hr | hr
    · exact h.describes_next (hattributed r hr htype)
    · exact hnew r hr htype

/-- What is known of an attempt that is waited for. -/
theorem Inv.record (h : x.Inv) (ht : x.controller.attemptOf orq = some (t, a)) :
    ∃ i cdr, x.sent orq = some i ∧ x.controller.records.cdrs.at? a.cdr = some cdr ∧ cdr.details = i.recorded ∧
      a.carrier = i.details.terminatingCarrier ∧ a.sipTrunk = i.details.terminatingCarrierAddress := by
  obtain ⟨ht', ha⟩ := Controller.attemptOf_eq_some ht
  obtain ⟨i, hsent, hseen⟩ := h.known orq t ht'
  rw [Records.seen_of_attempt (b := x.controller.records) ha] at hseen
  obtain ⟨cdr, hcdr, haccount⟩ := Option.map_eq_some_iff.1 hseen
  obtain ⟨hdetails, htrunk⟩ := Prod.mk.inj haccount
  obtain ⟨hcarrier, haddress⟩ := Prod.mk.inj htrunk
  exact ⟨i, cdr, hsent, hcdr, hdetails, hcarrier, haddress⟩

/-! ## One step -/

/-- The Call-IDs of the INVITEs. -/
theorem Inv.invited_next (h : x.Inv) (he : machine.enabled x e) (orq : Orq) :
    (x.next e).invited orq = ((x.next e).sent orq).map (·.details.dlegCallId) := by
  have hattempts := Controller.attemptInv_next h.typed h.attempts he.1
  change (if _ then if _ then some e.callId else x.invited orq else x.invited orq) =
    Option.map _ (if _ then _ else x.sent orq)
  rw [h.invited]
  split_ifs with hnone hsome
  · -- The INVITE is new.
    obtain ⟨t, ht⟩ := Option.isSome_iff_exists.1 hsome
    obtain ⟨a, ha⟩ := hattempts.attemptOf ht
    rw [ha]
    rfl
  · have ha : (x.controller.next e).attemptOf orq = none := by
      rw [Controller.attemptOf, Option.not_isSome_iff_eq_none.1 hsome]
      rfl
    rw [ha]
    rfl
  · rfl

/-- **What is known** after a step in which the INVITEs are carried on. -/
theorem Inv.known_next (h : x.Inv) (hcarries : x.controller.Carries (x.controller.next e) (x.callStart e) e.callId)
    (ht : (x.controller.next e).calls.mapTerminationAttempts orq = some t) :
    ∃ i, (x.next e).sent orq = some i ∧ (x.controller.next e).records.seen account t = some i.account := by
  rcases hcarries orq t ht with ⟨hold, hseen⟩ | ⟨hnone, a, ha, hseen⟩
  · obtain ⟨i, hsent, hi⟩ := h.known orq t hold
    exact ⟨i, h.sent_next hsent, hseen.trans hi⟩
  · refine ⟨x.invite e a, sent_next_of_new (t := t) hnone ?_, hseen⟩
    rw [Controller.attemptOf, ht, Option.bind_some, ha]
    rfl

theorem Inv.carries (h : x.Inv) (he : machine.enabled x e) :
    x.controller.Carries (x.controller.next e) (x.callStart e) e.callId := by
  by_cases hends : ∃ orq t a status, x.controller.Ends orq t a status e
  · obtain ⟨orq, t, a, status, hends⟩ := hends
    obtain ⟨i, cdr, hsent, hcdr, hdetails, hcarrier, haddress⟩ := h.record hends.attemptOf
    refine (Controller.ends_next h.typed h.attempts he.1 hends hcdr ?_ ?_ _ ?_).2
    · exact (congrArg Details.terminatingCarrier hdetails).trans hcarrier.symm
    · exact (congrArg Details.terminatingCarrierAddress hdetails).trans haddress.symm
    · rintro sip nta rfl
      -- The call began when the record says.
      change (x.sent orq).elim _ _ = _
      rw [hsent]
      exact (congrArg Details.tmStart hdetails).symm
  · refine Controller.carries_next h.typed h.attempts he.1 (fun orq t a status hends' => ?_) ?_
    · exact hends ⟨orq, t, a, status, hends'⟩
    · rintro sip uuid nta rfl
      rfl

theorem Inv.next (h : x.Inv) (he : machine.enabled x e) : (x.next e).Inv :=
  { h.toInv.next he with
    invited := h.invited_next he
    known := fun _ _ ht => h.known_next (h.carries he) ht }

/-- A report about the INVITE that ends describes it exactly if it says what is known of it. -/
theorem Inv.describes_iff (h : x.Inv) (he : machine.enabled x e) (hends : x.controller.Ends orq t a status e)
    (hsent : x.sent orq = some i) {cdr : CdrInfo} (hdleg : cdr.dlegCallId = i.details.dlegCallId) :
    (x.next e).Describes (x.controller.finalCopy .terminationAttempt status cdr) ↔ cdr.details = i.details := by
  have hcopy := x.controller.finalCopy_details .terminationAttempt status cdr
  have hsent' := h.sent_next (e := e) hsent
  constructor
  · rintro ⟨orq', i', f, hsent₁, hdetails, -⟩
    rw [hcopy] at hdetails
    -- No two INVITEs have the same Call-ID.
    have hcallId : (x.next e).invited orq' = some i.details.dlegCallId := by
      rw [h.invited_next he, hsent₁, Option.map_some, ← hdleg]
      exact congrArg some (congrArg Details.dlegCallId hdetails).symm
    have hcallId' : (x.next e).invited orq = some i.details.dlegCallId := by
      rw [h.invited_next he, hsent']
      rfl
    obtain rfl := he.2 orq' orq _ hcallId hcallId'
    obtain rfl := Option.some_inj.1 (hsent₁.symm.trans hsent')
    exact hdetails
  · intro hdetails
    refine ⟨orq, i, ⟨orq, status, x.controller.now⟩, hsent', hcopy.trans hdetails, ?_, rfl, ?_, ?_⟩
    · refine List.mem_append_right _ ?_
      rw [hends.final]
      exact List.mem_singleton_self _
    · exact (x.controller.finalCopy_isReport .terminationAttempt status).sipStatus cdr
    · exact x.controller.finalCopy_finalTime _ _ _

theorem accurate_iff (hends : x.controller.Ends orq t a status e) (hsent : x.sent orq = some i) :
    x.Accurate e ↔ x.controller.Truthful a i e := by
  refine ⟨fun h => h orq t a status i hends hsent, fun h orq' t' a' status' i' hends' hsent' => ?_⟩
  obtain ⟨rfl, rfl⟩ := hends.unique hends'
  obtain rfl := Option.some_inj.1 (hsent'.symm.trans hsent)
  exact h

/-- **A step keeps the reports right** exactly if what it reports is right. -/
theorem Inv.attributed_next_iff (h : x.Inv) (hattributed : x.Attributed) (he : machine.enabled x e) :
    (x.next e).Attributed ↔ x.Accurate e := by
  by_cases hends : ∃ orq t a status, x.controller.Ends orq t a status e
  · obtain ⟨orq, t, a, status, hends⟩ := hends
    obtain ⟨i, cdr, hsent, hcdr, hdetails, hcarrier, haddress⟩ := h.record hends.attemptOf
    have hwrite : ∀ connected, e ≠ .writeCdr connected := by
      rintro connected rfl
      exact hends
    have hposts := (Controller.ends_next h.typed h.attempts he.1 hends hcdr
      ((congrArg Details.terminatingCarrier hdetails).trans hcarrier.symm)
      ((congrArg Details.terminatingCarrierAddress hdetails).trans haddress.symm) cdr.tmStart fun _ _ _ => rfl).1
    have hdleg : ∀ r ∈ x.controller.reported a cdr e, r.dlegCallId = i.details.dlegCallId := fun r hr =>
      (Controller.reported_dlegCallId hr).trans (congrArg Details.dlegCallId hdetails)
    rw [h.attributed_next hattributed (Reporting.posted_next h.toInv hwrite hposts), accurate_iff hends hsent,
      ← Controller.reported_iff hdetails, List.forall_mem_map]
    refine forall_congr' fun r => forall_congr' fun hr => ?_
    rw [imp_iff_right ((x.controller.finalCopy_isReport _ _).type r), h.describes_iff he hends hsent (hdleg r hr)]
  · have haccurate : x.Accurate e := fun orq t a status i hends' => absurd ⟨orq, t, a, status, hends'⟩ hends
    refine iff_of_true ?_ haccurate
    by_cases hwrite : ∃ connected, e = .writeCdr connected
    · obtain ⟨connected, rfl⟩ := hwrite
      have hposted : (x.next (.writeCdr connected)).posted = x.posted ++ [] := by
        rw [List.append_nil]
        exact Reporting.posted_writeCdr x.toReporting connected
      exact (h.attributed_next hattributed hposted).2 fun r hr => absurd hr List.not_mem_nil
    · have hwrite' : ∀ connected, e ≠ .writeCdr connected := fun connected heq => hwrite ⟨connected, heq⟩
      obtain ⟨new, hposts, hnew⟩ := (Controller.spares_next he.1 hwrite' fun orq t a status hends' =>
        hends ⟨orq, t, a, status, hends'⟩).posts
      refine (h.attributed_next hattributed (Reporting.posted_next h.toInv hwrite' hposts)).2 ?_
      exact fun r hr htype => absurd htype (hnew r hr)

/-! ## Runs -/

theorem inv_init (hx : x ∈ machine.init) : x.Inv ∧ x.Attributed := by
  obtain ⟨hreporting, hsent, -⟩ := hx
  have hinv := Reporting.inv_init hreporting
  refine ⟨{ hinv with invited := fun orq => ?_, known := fun orq t ht => ?_ }, fun r hr => ?_⟩
  · rw [hreporting.2.2.2, hsent]
    rfl
  · rw [hreporting.1.calls] at ht
    cases ht
  · rw [Reporting.posted_init hreporting] at hr
    exact absurd hr List.not_mem_nil

/-- **Attribution.** In a run, all reports that are posted describe an INVITE exactly as long as all
    reports made are right: about an INVITE that was sent when the first one of its call was, and not
    after a crankback to another trunk that fails. -/
theorem attributed_iff {es : List ControllerEvent} (hrun : machine.IsRun x es) :
    machine.Always Attributed x es ↔ machine.Along Accurate x es := by
  obtain ⟨hinv, hattributed⟩ := inv_init hrun.1
  exact Machine.always_iff_along (I := Inv) (fun x e h _ he _ => h.next he)
    (fun x e h hattributed he => h.attributed_next_iff hattributed he) hinv hattributed hrun.2

theorem inv_of_reachable (hx : machine.Reachable x) : x.Inv :=
  hx.invariant (I := Inv) (fun _ hx => (inv_init hx).1) fun _ _ h he => h.next he

/-- Only the reports matter for what may happen. -/
theorem along_enabled {es : List ControllerEvent}
    (h : Reporting.machine.Along Reporting.machine.enabled x.toReporting es) : machine.Along machine.enabled x es := by
  induction es generalizing x with
  | nil => trivial
  | cons e es ih => exact ⟨h.1, ih h.2⟩

end

/-! ## An example -/

def exampleAuditing : Auditing := { Reporting.exampleReporting with }

theorem exampleAuditing_init : exampleAuditing ∈ machine.init := ⟨Reporting.exampleReporting_init, rfl, rfl⟩

/-- The events of a run that starts there, as they can be checked. -/
theorem isRun_exampleAuditing {es : List ControllerEvent} (hes : Reporting.machine.Along (fun x e =>
      Controller.machine.enabled x.controller e ∧ (x.next e).Distinct) Reporting.exampleReporting es) :
    machine.IsRun exampleAuditing es :=
  ⟨exampleAuditing_init, along_enabled ((Reporting.inv_init Reporting.exampleReporting_init).along_enabled hes)⟩

/-- A call that is refused at once. -/
theorem attributed_exampleRefusal :
    machine.Always Attributed exampleAuditing [Reporting.exampleServerCall, Reporting.exampleRefusal] := by
  refine (attributed_iff (isRun_exampleAuditing (by decide +kernel))).2 ⟨?_, ?_, trivial⟩
  · exact fun orq t a status i hends => hends.elim
  · rintro orq t a status i ⟨rfl, -⟩ hsent -
    have hstart : ((machine.next exampleAuditing Reporting.exampleServerCall).sent ⟨4⟩).all
        (fun i => i.details.tmStart = i.tmCall) = true := by decide +kernel
    rw [hsent] at hstart
    refine ⟨of_decide_eq_true hstart, fun h => ?_⟩
    -- A 486 is not cranked back.
    exact h.1.1.elim (fun h => absurd h (by decide)) fun h => absurd h (by decide)

/-- After five seconds the carrier sends the call elsewhere. -/
def exampleLate : List ControllerEvent := [Reporting.exampleServerCall, .clock 5, Reporting.exampleRedirect]

/-- The call is refused there. -/
def exampleLateRefusal : ControllerEvent := .inviteResponse ⟨6⟩ { status := 486 } {}

/-- The report about the second INVITE says that it was sent when the first one was. -/
theorem exampleLate_not_attributed : machine.IsRun exampleAuditing (exampleLate ++ [exampleLateRefusal]) ∧
    ¬machine.Always Attributed exampleAuditing (exampleLate ++ [exampleLateRefusal]) := by
  have hrun : machine.IsRun exampleAuditing (exampleLate ++ [exampleLateRefusal]) :=
    isRun_exampleAuditing (by decide +kernel)
  refine ⟨hrun, fun hattributed => ?_⟩
  obtain ⟨hlate, hrefusal, -⟩ := Machine.along_append_iff.1 hrun.2
  obtain ⟨-, hbefore, hafter⟩ := Machine.always_append hattributed
  have hinv := inv_of_reachable (Machine.Reachable.exec (.init exampleAuditing_init) hlate)
  have hstate : ((machine.exec exampleAuditing exampleLate).controller.attemptOf ⟨6⟩).isSome = true ∧
      (machine.exec exampleAuditing exampleLate).controller.Reached ⟨6⟩ ∧
      ((machine.exec exampleAuditing exampleLate).sent ⟨6⟩).any (fun i => i.details.tmStart ≠ i.tmCall) = true := by
    decide +kernel
  generalize machine.exec exampleAuditing exampleLate = x at hrefusal hbefore hafter hinv hstate
  obtain ⟨hattempt, hreached, hsent⟩ := hstate
  obtain ⟨⟨t, a⟩, ht⟩ := Option.isSome_iff_exists.1 hattempt
  obtain ⟨i, hi, hstart⟩ := (Option.any_eq_true _ _).1 hsent
  have haccurate := (hinv.attributed_next_iff hbefore hrefusal).1 hafter
  have htruthful := haccurate ⟨6⟩ t a 486 i ⟨rfl, rfl, by decide, hreached, ht⟩ hi
  exact of_decide_eq_true hstart (htruthful fun h => absurd h.1.2 (by decide)).1

end Auditing

end Ssp
