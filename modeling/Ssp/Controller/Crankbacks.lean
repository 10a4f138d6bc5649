import Ssp.Controller.Reports
import Ssp.Controller.Statistics

/-!
# Crankbacks

After a 503 or 480 the call goes on with another INVITE, to the next route. Its URI and its
P-Charge-Info header are put together once more, from the response, and not from the request as
for the first INVITE.

* `crankback_agrees_iff`: the INVITE is the one that the route would have got as the first route of
  the call, up to the P-Charge-Info header, which a crankback also adds where the route has no
  charge number.
* `crankback_invisible_iff`: where nta does not grant the INVITE, the failure is passed on with the
  carrier of the next route, and reported once more.
-/

namespace Ssp

/-! ## What is sent -/

/-- The P-Charge-Info headers of a request. -/
def OutgoingRequest.pChargeInfoHeaders (r : OutgoingRequest) : List Bytes :=
  r.unknown.filter fun header => "P-Charge-Info:".toList.isPrefixOf header

/-- The trunk address, the carrier and the charge number are the same. -/
structure Route.Same (route route' : Route) : Prop where
  text : route.trunk.text = route'.trunk.text
  carrier : route.carrier = route'.carrier
  chargeNumber : route.chargeNumber = route'.chargeNumber

namespace Calls

/-- What was done between two states, the last event first. -/
def newEvents (s s' : Calls) : List CallEvent := s'.log.take (s'.log.length - s.log.length)

/-- The requests that were sent on between two states. -/
def sentOn (s s' : Calls) : List OutgoingRequest :=
  (s.newEvents s').filterMap fun
    | .created _ orq => (s'.outgoing orq).map (·.request)
    | _ => none

section

variable {s s' : Calls} {r : OutgoingRequest}

theorem destroyLeg_log (s : Calls) (leg : Leg) : (s.destroyLeg leg).log = s.log := by
  obtain ⟨legs, faults, heq⟩ := s.destroyLeg_frame leg
  rw [heq]

theorem newEvents_of_log {new : List CallEvent} (h : s'.log = new ++ s.log) : s.newEvents s' = new := by
  unfold newEvents
  rw [h, List.length_append, Nat.add_sub_cancel, List.take_left]

/-- Nothing is sent on. -/
theorem sentOn_eq_nil {new : List CallEvent} (h : s'.log = new ++ s.log)
    (hnew : ∀ irq orq, .created irq orq ∉ new) : s.sentOn s' = [] := by
  unfold sentOn
  rw [newEvents_of_log h, List.filterMap_eq_nil_iff]
  intro e he
  cases e with
  | created irq orq => exact absurd he (hnew irq orq)
  | _ => rfl

/-- One request is sent on. -/
theorem sentOn_eq_singleton {irq : Irq} {orq : Orq} {request : OutgoingRequest}
    (h : s'.log = .created irq orq :: s.log) (hrequest : (s'.outgoing orq).map (·.request) = some request) :
    s.sentOn s' = [request] := by
  unfold sentOn
  rw [@newEvents_of_log s s' [.created irq orq] h]
  exact List.filterMap_cons_some hrequest

theorem request_update (outgoing : Orq → Option Outgoing) (orq : Orq) (o : Outgoing) :
    (Function.update outgoing orq (some o) orq).map (·.request) = some o.request := by
  rw [Function.update_self]
  rfl

/-- Destroying a transaction does not change its request. -/
theorem request_destroyOutgoing (s : Calls) (orq orq' : Orq) :
    ((s.destroyOutgoing orq).outgoing orq').map (·.request) = (s.outgoing orq').map (·.request) := by
  change (Function.update s.outgoing _ _ orq').map _ = _
  by_cases h : orq' = orq
  · subst h
    rw [Function.update_self, Option.map_map]
    rfl
  · rw [Function.update_of_ne h]

end

/-! ## The same tables -/

/-- The tables are the same. The next handle of nta and what was done may not be. -/
def SameTables (s s' : Calls) : Prop := ∃ n log, s' = { s with next := n, log := log }

theorem SameTables.destroyLeg {s s' : Calls} (h : s.SameTables s') (leg : Leg) :
    (s.destroyLeg leg).SameTables (s'.destroyLeg leg) := by
  obtain ⟨n, log, rfl⟩ := h
  refine ⟨n, log, ?_⟩
  unfold Calls.destroyLeg
  dsimp only
  split_ifs <;> rfl

theorem SameTables.clearDialog {s s' : Calls} (h : s.SameTables s') (leg : Leg) :
    (s.clearDialog leg).SameTables (s'.clearDialog leg) := by
  have hother : s'.getAssociatedDialog leg = s.getAssociatedDialog leg := by
    obtain ⟨n, log, rfl⟩ := h
    rfl
  unfold Calls.clearDialog
  rw [hother]
  cases s.getAssociatedDialog leg with
  | none =>
    obtain ⟨n, log, rfl⟩ := h
    exact ⟨n, log, rfl⟩
  | some other =>
    dsimp only
    -- The erasures do not look at what may be different.
    have herased : (((s.destroyLeg leg).eraseDialog leg).eraseDialogInfo leg).SameTables
        (((s'.destroyLeg leg).eraseDialog leg).eraseDialogInfo leg) := by
      obtain ⟨n, log, heq⟩ := h.destroyLeg leg
      exact ⟨n, log, by rw [heq]; rfl⟩
    split_ifs
    · obtain ⟨n, log, heq⟩ := herased
      exact ⟨n, log, by rw [heq]; rfl⟩
    · obtain ⟨n, log, heq⟩ := herased.destroyLeg other
      exact ⟨n, log, by rw [heq]; rfl⟩

end Calls

namespace Controller

theorem pChargeInfoHeaders_nil {a : TerminationAttempt} (ha : a.pChargeInfoHeader = []) :
    (terminationInvite a).pChargeInfoHeaders = [] := by
  simp only [OutgoingRequest.pChargeInfoHeaders, terminationInvite, ha]
  rfl

theorem pChargeInfoHeaders_of_number {a : TerminationAttempt} {chargeNumber address : Bytes}
    (ha : a.pChargeInfoHeader = pChargeInfo chargeNumber address) :
    (terminationInvite a).pChargeInfoHeaders = [pChargeInfo chargeNumber address] := by
  have hprefix : "P-Charge-Info:".toList.isPrefixOf (pChargeInfo chargeNumber address) = true := by
    refine List.isPrefixOf_iff_prefix.2 ⟨" <sip:".toList ++ (chargeNumber ++ '@' :: address ++ ['>']), ?_⟩
    unfold pChargeInfo
    rw [← List.append_assoc, List.append_assoc _ chargeNumber]
    rfl
  simp only [OutgoingRequest.pChargeInfoHeaders, terminationInvite, ha, List.filter_cons, hprefix, if_true,
    List.filter_nil]

section

variable {c : Controller} {sip : Request} {route : Route} {config : SspConfig}

/-! ## The first INVITE -/

/-- What `processTerminationRequest` sends, with an attempt and an A leg. -/
theorem sentOn_terminateOn (hs : 0 < c.calls.next) {t : ℕ} {a : TerminationAttempt} (ha : c.attempts[t]? = some a)
    {s : Calls} (hlog : c.calls.log = s.log) (irq : Irq) (aLeg : Leg) (sip : Request) (nta : Creations) :
    s.sentOn (c.terminateOn irq aLeg sip t nta).1.calls = if GrantsInvite nta a then [terminationInvite a] else [] := by
  unfold terminateOn
  rcases generateTerminationRequest_cases hs ha irq nta with
    ⟨hnta, n, -, heq⟩ | ⟨hnta, c', heq, hcalls, -⟩ <;> rw [heq]
  · rw [if_neg hnta]
    refine @Calls.sentOn_eq_nil _ _ [] ?_ fun _ _ => List.not_mem_nil
    exact (Calls.destroyLeg_log _ aLeg).trans hlog
  · rw [if_pos hnta]
    refine @Calls.sentOn_eq_singleton _ _ irq ⟨c.calls.next + 1⟩ (terminationInvite a) ?_ ?_
    · simp only [withCalls_calls, require_calls, hcalls, ← hlog]
      rfl
    · simp only [withCalls_calls, require_calls, hcalls]
      exact Calls.request_update _ _ _

theorem sentOn_terminate (hs : 0 < c.calls.next) {t : ℕ} {a : TerminationAttempt} (ha : c.attempts[t]? = some a)
    (irq : Irq) (sip : Request) (nta : Creations) :
    c.calls.sentOn (c.terminate irq sip t nta).1.calls = if GrantsInvite nta a then [terminationInvite a] else [] := by
  unfold terminate
  generalize hleg : c.calls.createLeg nta.aLeg = p
  obtain ⟨aLeg, s⟩ := p
  have hs' : 0 < s.next ∧ s.log = c.calls.log := by
    unfold Calls.createLeg at hleg
    split_ifs at hleg <;> obtain ⟨-, rfl⟩ := Prod.mk.inj hleg
    · exact ⟨Nat.succ_pos _, rfl⟩
    · exact ⟨hs, rfl⟩
  exact @sentOn_terminateOn (c.withCalls (s.bindIncoming irq aLeg)) hs'.1 t a ha c.calls hs'.2 irq aLeg sip nta

/-- What `processTerminationRequest` sends to the first route of a call. -/
theorem sentOn_processTerminationRequest (hs : 0 < c.calls.next) (hroute : c.firstRoute sip = some (route, config))
    {a : TerminationAttempt} (ha : (newAttempt { c with config := config } sip route).2.attempts[
      (newAttempt { c with config := config } sip route).1]? = some a) (irq : Irq) (nta : Creations) :
    c.calls.sentOn (c.processTerminationRequest irq sip nta).1.calls =
      if GrantsInvite nta a then [terminationInvite a] else [] := by
  unfold processTerminationRequest
  rw [hroute]
  exact @sentOn_terminate (newAttempt { c with config := config } sip route).2 hs _ a ha irq sip nta

end

/-! ## The INVITE of a crankback -/

section

variable {c : Controller} {orq : Orq} {t : ℕ} {a : TerminationAttempt} {sip : Response} {route : Route}
  {config : SspConfig} {nta : Creations} {r : OutgoingRequest}

/-- What a crankback sends. -/
theorem sentOn_crankback (hs : 0 < c.calls.next) (ht : c.attemptOf orq = some (t, a))
    (hstatus : sip.status = 503 ∨ sip.status = 480)
    (hroute : c.config.getTerminationRouteForAltCarrier a.carrier = some (route, config))
    (hr : r ∈ c.calls.sentOn (c.processInviteResponseInsideDialog orq sip nta).calls) :
    r = terminationInvite (crankedTo sip route a) := by
  have hfinal : 200 ≤ sip.status := by omega
  by_cases hreached : c.Reached orq
  · rw [inviteResponse_of_reached hreached] at hr
    generalize horq : c.calls.getAssociatedIncoming orq = irq at hr
    have hending := processInviteResponse_ending hs ht hfinal irq (c.calls.legFromIncoming irq)
      (c.calls.legFromOutgoing orq) nta
    generalize c.processInviteResponse _ _ _ _ _ _ = c' at hr hending
    -- A failure that is passed on sends nothing.
    have hpassed : ∀ (s : Calls) (reply : Reply) (bLeg : Leg), s.log = c.calls.log →
        c'.calls ≠ (s.settle irq orq reply []).clearDialog bLeg := by
      intro s reply bLeg hlog hcalls
      rw [@Calls.sentOn_eq_nil c.calls c'.calls [.replied irq orq reply] ?_ (by simp)] at hr
      · exact List.not_mem_nil hr
      · rw [hcalls, Calls.clearDialog_log, ← hlog]
        rfl
    cases hending with
    | answered reply h hreply hcalls hrecords => omega
    | failed n g h hcrank hredirect hn hg hcalls hrecords =>
      exact absurd hcalls (hpassed (Calls.eraseAttempt { c.calls with next := n } orq) _ _ rfl)
    | redirected h hnta hcalls hrecords => omega
    | crankedBack route' config' hcrank hroute' hnta hcalls hrecords =>
      obtain ⟨rfl, -⟩ := Prod.mk.inj (Option.some_inj.1 (hroute.symm.trans hroute'))
      rw [@Calls.sentOn_eq_singleton _ _ irq ⟨c.calls.next + 1⟩ (terminationInvite (crankedTo sip route a)) ?_
        ?_] at hr
      · exact List.mem_singleton.1 hr
      · rw [hcalls, Calls.replaceAttempt_log]
      · rw [hcalls, Calls.replaceAttempt_outgoing, Calls.request_destroyOutgoing]
        exact Calls.request_update _ _ _
    | crankbackFailed n route' config' hcrank hroute' hnta hn hcalls hrecords =>
      exact absurd hcalls (hpassed (Calls.eraseAttempt { c.calls with next := n } orq) _ _ rfl)
  · obtain ⟨assertion, heq⟩ := inviteResponse_of_not_reached hreached sip nta
    have hnone : c.calls.sentOn (c.withCalls (c.calls.fault (.assertion assertion))).calls = [] :=
      @Calls.sentOn_eq_nil _ _ [] rfl fun _ _ => List.not_mem_nil
    rw [heq, hnone] at hr
    exact absurd hr List.not_mem_nil

/-- The INVITE that `processTerminationRequest` makes for the request `sip`, to its first route, and
    gives to nta. -/
def FirstInvite (c : Controller) (sip : Request) (route : Route) (r : OutgoingRequest) : Prop :=
  ∃ config a, c.firstRoute sip = some (route, config) ∧ (newAttempt { c with config := config } sip route).2.attempts[
    (newAttempt { c with config := config } sip route).1]? = some a ∧ r = terminationInvite a

/-- `processTerminationRequest` sends the INVITE `r` for the request `sip`, to its first route. -/
def SendsFirst (c : Controller) (sip : Request) (route : Route) (r : OutgoingRequest) : Prop :=
  ∃ irq nta config, c.firstRoute sip = some (route, config) ∧
    r ∈ c.calls.sentOn (c.processTerminationRequest irq sip nta).1.calls

/-- The INVITE `r` is sent to a route after the response `sip`, a 503 or 480, to the one of the
    attempt `a`. -/
def SendsNext (c : Controller) (a : TerminationAttempt) (sip : Response) (route : Route) (r : OutgoingRequest) :
    Prop :=
  ∃ orq t nta config, c.attemptOf orq = some (t, a) ∧ (sip.status = 503 ∨ sip.status = 480) ∧
    c.config.getTerminationRouteForAltCarrier a.carrier = some (route, config) ∧
    r ∈ c.calls.sentOn (c.processInviteResponseInsideDialog orq sip nta).calls

theorem FirstInvite.spec {sip : Request} (h : c.FirstInvite sip route r) :
    r.url = some (sipUri sip.sipTo.url.user route.trunk.text) ∧
      r.pChargeInfoHeaders =
        if route.chargeNumber = [] then [] else [pChargeInfo route.chargeNumber route.trunk.text] := by
  obtain ⟨config, a, hroute, ha, rfl⟩ := h
  obtain ⟨a', ha', hurl, hheader⟩ := newAttempt_attempt { c with config := config } sip route
  obtain rfl := Option.some_inj.1 (ha.symm.trans ha')
  refine ⟨congrArg some hurl, ?_⟩
  split_ifs at hheader ⊢
  · exact pChargeInfoHeaders_nil hheader
  · exact pChargeInfoHeaders_of_number hheader

/-- nta sends it if the route has a charge number, and otherwise sends nothing. -/
theorem FirstInvite.sendsFirst_iff (hs : 0 < c.calls.next) {sip : Request} {r₁ : OutgoingRequest}
    (h : c.FirstInvite sip route r₁) (r : OutgoingRequest) :
    c.SendsFirst sip route r ↔ r = r₁ ∧ route.chargeNumber ≠ [] := by
  obtain ⟨config, a, hroute, ha, rfl⟩ := h
  obtain ⟨a', ha', -, hheader⟩ := newAttempt_attempt { c with config := config } sip route
  obtain rfl := Option.some_inj.1 (ha.symm.trans ha')
  constructor
  · rintro ⟨irq, nta, config', hroute', hr⟩
    obtain ⟨-, rfl⟩ := Prod.mk.inj (Option.some_inj.1 (hroute.symm.trans hroute'))
    rw [sentOn_processTerminationRequest hs hroute ha] at hr
    split_ifs at hr with hnta
    · exact ⟨List.mem_singleton.1 hr, ((grantsInvite_first hheader nta).1 hnta).1⟩
    · exact absurd hr List.not_mem_nil
  · rintro ⟨rfl, hnumber⟩
    refine ⟨.null, {}, config, hroute, ?_⟩
    rw [sentOn_processTerminationRequest hs hroute ha, if_pos ((grantsInvite_first hheader {}).2 ⟨hnumber, rfl, rfl⟩)]
    exact List.mem_singleton_self _

/-- The header is there in any case. -/
theorem SendsNext.spec (hs : 0 < c.calls.next) (h : c.SendsNext a sip route r) :
    r.url = some (sipUri sip.sipTo.url.user route.trunk.text) ∧
      r.pChargeInfoHeaders = [pChargeInfo route.chargeNumber route.trunk.text] := by
  obtain ⟨orq, t, nta, config, ht, hstatus, hroute, hr⟩ := h
  obtain rfl := sentOn_crankback hs ht hstatus hroute hr
  exact ⟨rfl, pChargeInfoHeaders_of_number rfl⟩

/-- **A crankback sends what would have been sent first**, with a P-Charge-Info header in any
    case: the INVITE is the same exactly if the route has a charge number. Without one, the INVITE
    for the first route has no such header, and nta does not even send it. -/
theorem crankback_agrees_iff {c₁ c₂ : Controller} (hs₁ : 0 < c₁.calls.next) (hs₂ : 0 < c₂.calls.next)
    {route₁ route₂ : Route} (hsame : route₁.Same route₂) {r₁ r₂ : OutgoingRequest}
    (h₁ : c₁.FirstInvite a.sip route₁ r₁) (h₂ : c₂.SendsNext a sip route₂ r₂)
    (hecho : sip.sipTo.url.user = a.sip.sipTo.url.user) :
    (r₂.url = r₁.url ∧ r₂.pChargeInfoHeaders = r₁.pChargeInfoHeaders ↔ route₁.chargeNumber ≠ []) ∧
      ∀ r, c₁.SendsFirst a.sip route₁ r ↔ r = r₁ ∧ route₁.chargeNumber ≠ [] := by
  refine ⟨?_, h₁.sendsFirst_iff hs₁⟩
  obtain ⟨hurl₁, hheaders₁⟩ := h₁.spec
  obtain ⟨hurl₂, hheaders₂⟩ := h₂.spec hs₂
  rw [hecho, ← hsame.text, ← hurl₁] at hurl₂
  rw [← hsame.text, ← hsame.chargeNumber] at hheaders₂
  rw [and_iff_right hurl₂, hheaders₁, hheaders₂]
  by_cases hnumber : route₁.chargeNumber = []
  · -- The first INVITE has no such header.
    rw [if_pos hnumber]
    exact iff_of_false (List.cons_ne_nil _ _) (not_not.2 hnumber)
  · rw [if_neg hnumber]
    exact iff_of_true rfl hnumber

end

/-! ## A crankback that fails -/

/-- The controller with another limit of retries. -/
def limitTo (c : Controller) (n : UInt32) : Controller := { c with nTerminationRetries := n }

/-- Two controllers have passed on the same and posted the same, and have the same tables. -/
structure Alike (c c' : Controller) : Prop where
  relayed : c.calls.log = c'.calls.log
  posted : c.queued = c'.queued
  tables : c.calls.SameTables c'.calls
  mapTrunkStats : c.mapTrunkStats = c'.mapTrunkStats

section

variable {c : Controller} {orq : Orq} {t : ℕ} {a : TerminationAttempt} {sip : Response} {route : Route}
  {config : SspConfig} {nta : Creations}

/-! ### What is counted for the trunks -/

/-- A crankback that fails counts nothing. -/
theorem mapTrunkStats_processCrankback (hs : 0 < c.calls.next) (ha : c.attempts[t]? = some a)
    (hstatus : sip.status = 503 ∨ sip.status = 480) (hnta : ¬(nta.bLeg = true ∧ nta.orq = true)) (irq : Irq)
    (orq : Orq) (bLeg : Leg) :
    (c.processCrankback t a irq orq bLeg sip nta).controller.mapTrunkStats = c.mapTrunkStats := by
  have htally := tally_processCrankback hs ha irq orq bLeg hstatus nta
  rw [nextRoute?, if_neg fun h => hnta h.2] at htally
  exact congrArg Tally.trunks htally

/-- The failure is counted once, whether another route is looked for or not. -/
theorem mapTrunkStats_inviteResponse (hs : 0 < c.calls.next) (ht : c.attemptOf orq = some (t, a))
    (hstatus : sip.status = 503 ∨ sip.status = 480) (hnta : ¬(nta.bLeg = true ∧ nta.orq = true)) (irq : Irq)
    (aLeg bLeg : Leg) : (c.processInviteResponse irq orq aLeg bLeg sip nta).mapTrunkStats =
      ((c.check .inviteResponseNoCdr true).reportFailure (some (t, a)) sip.status).mapTrunkStats := by
  obtain ⟨-, ha⟩ := attemptOf_eq_some ht
  obtain ⟨asserts, stats, heq⟩ := reportFailure_frame (c.check .inviteResponseNoCdr true) (some (t, a))
    sip.status
  have hstats : (((c.check .inviteResponseNoCdr true).reportFailure (some (t, a)) sip.status).processFinalResponse
      irq orq aLeg bLeg (some (t, a)) none sip nta).controller.mapTrunkStats =
        ((c.check .inviteResponseNoCdr true).reportFailure (some (t, a)) sip.status).mapTrunkStats := by
    unfold processFinalResponse
    rw [if_neg (by omega)]
    dsimp only
    rw [if_neg (by omega), if_pos hstatus, heq]
    exact mapTrunkStats_processCrankback (by exact hs) (by exact ha) hstatus hnta irq orq bLeg
  unfold processInviteResponse
  rw [show ((c.calls.mapTerminationAttempts orq).bind fun t => c.attempts[t]?.map fun a => (t, a)) =
    some (t, a) from ht]
  dsimp only
  rw [if_neg (by omega), if_pos (by omega)]
  exact (congrArg Tally.trunks (tally_conclude _ _ _ _ _ _ _)).trans hstats

/-! ### What is seen of it -/

/-- The records of a crankback that fails: two reports are posted. -/
theorem posts_crankbackFailed (h : c.AttemptInv) (ht : c.attemptOf orq = some (t, a)) {b : Records}
    (hb : b = (((c.records.postCopy a.cdr (c.finalCopy .terminationAttempt sip.status)).modifyAttempt t
      (crankedTo sip route)).update a.cdr (setRoute route)).postCopy a.cdr
      (c.finalCopy .terminationAttempt sip.status)) :
    ∃ r r', Records.Posts c.records b [r, r'] := by
  obtain ⟨ht', ha⟩ := attemptOf_eq_some ht
  have hf := c.finalCopy_isReport .terminationAttempt sip.status
  have hg : Counts 1 (crankedTo sip route) := fun _ => ⟨rfl, rfl⟩
  have hk : KeepsIds (setRoute route) := ⟨fun _ => rfl, fun _ => rfl⟩
  obtain ⟨hkeeps, ha', hcdr, r, hposts, -⟩ := crankback_spec h.own ha hf hg hk
  obtain ⟨-, r', hposts', -⟩ := report_spec h.own (h.lt orq t ht') hkeeps ha' hf
  rw [hcdr, ← hb] at hposts'
  exact ⟨r, r', hposts.trans hposts'⟩

/-- What is left of a call whose failure is passed on. -/
theorem sameTables_failed (s : Calls) (n : ℕ) (irq : Irq) (orq : Orq) (bLeg : Leg) (reply reply' : Reply) :
    Calls.SameTables (((s.eraseAttempt orq).settle irq orq reply []).clearDialog bLeg)
      (((Calls.eraseAttempt { s with next := n } orq).settle irq orq reply' []).clearDialog bLeg) :=
  Calls.SameTables.clearDialog ⟨n, .replied irq orq reply' :: s.log, rfl⟩ bLeg

/-- The limit is reached: the failure is passed on as it is. -/
theorem Ending.of_limit {c' : Controller} {irq : Irq} {bLeg : Leg} (h : Ending c irq orq bLeg t a sip nta c')
    (hstatus : sip.status = 503 ∨ sip.status = 480) (hcrank : ¬c.CranksBack a sip) :
    c'.calls = ((c.calls.eraseAttempt orq).settle irq orq (failureReply a sip) []).clearDialog bLeg ∧
      c'.records = c.records.postCopy a.cdr (c.finalCopy .terminationAttempt sip.status) := by
  cases h with
  | answered reply h hreply hcalls hrecords => omega
  | failed n g h hcrank hredirect hn hg hcalls hrecords =>
    obtain ⟨rfl, rfl⟩ : g = id ∧ n = c.calls.next := hg.resolve_right fun h => by omega
    rw [Records.modifyAttempt, List.modify_id] at hrecords
    exact ⟨hcalls, hrecords⟩
  | redirected h hnta hcalls hrecords => omega
  | crankedBack route config h | crankbackFailed n route config h => exact absurd h hcrank

/-- The next route is prepared, and the failure is passed on after all. -/
theorem Ending.of_refused {c' : Controller} {irq : Irq} {bLeg : Leg} (h : Ending c irq orq bLeg t a sip nta c')
    (hcrank : c.CranksBack a sip)
    (hroute : c.config.getTerminationRouteForAltCarrier a.carrier = some (route, config))
    (hnta : ¬(nta.bLeg = true ∧ nta.orq = true)) :
    (∃ n, c'.calls = ((Calls.eraseAttempt { c.calls with next := n } orq).settle irq orq
        (failureReply (crankedTo sip route a) sip) []).clearDialog bLeg) ∧
      c'.records = (((c.records.postCopy a.cdr (c.finalCopy .terminationAttempt sip.status)).modifyAttempt t
        (crankedTo sip route)).update a.cdr (setRoute route)).postCopy a.cdr
        (c.finalCopy .terminationAttempt sip.status) := by
  cases h with
  | answered reply h hreply hcalls hrecords => exact absurd h hcrank.status_ne.1
  | failed n g h hnot => exact absurd hcrank hnot
  | redirected h hgranted hcalls hrecords => exact absurd h hcrank.status_ne.2
  | crankedBack route' config' h hroute' hgranted hcalls hrecords => exact absurd hgranted hnta
  | crankbackFailed n route' config' h hroute' hrefused hn hcalls hrecords =>
    obtain ⟨rfl, -⟩ := Prod.mk.inj (Option.some_inj.1 (hroute.symm.trans hroute'))
    exact ⟨⟨n, hcalls⟩, hrecords⟩

/-- What was posted is the same only if nobody posts. -/
theorem queued_eq_iff {b b' : Controller} {l l' : List CdrInfo} (hne : l.length ≠ l'.length)
    (hposts : Records.Posts c.records b.records l) (hposts' : Records.Posts c.records b'.records l') :
    b.queued = b'.queued ↔ c.cdrWriter = none := by
  have hnone : c.records.posted = none ↔ c.cdrWriter = none := Option.map_eq_none_iff
  rw [← hnone]
  constructor
  · intro heq
    by_contra hwriter
    rw [(queued_of_posts hwriter hposts).2, (queued_of_posts hwriter hposts').2] at heq
    exact hne (congrArg List.length (List.append_cancel_left heq))
  · intro hwriter
    unfold Records.Posts at hposts hposts'
    rw [hwriter, Option.map_none] at hposts hposts'
    rw [queued, queued, hposts, hposts']

/-- What is passed on is the same if it comes from the same carrier and trunk. -/
theorem relayed_eq_iff {s s' : Calls} {irq : Irq} {bLeg : Leg} (n : ℕ)
    (hs : s = ((c.calls.eraseAttempt orq).settle irq orq (failureReply a sip) []).clearDialog bLeg)
    (hs' : s' = ((Calls.eraseAttempt { c.calls with next := n } orq).settle irq orq
      (failureReply (crankedTo sip route a) sip) []).clearDialog bLeg) :
    s.log = s'.log ↔ route.carrier = a.carrier ∧ route.trunk.text = a.sipTrunk := by
  have hlog : s.log = .replied irq orq (failureReply a sip) :: c.calls.log := by
    rw [hs, Calls.clearDialog_log]
    rfl
  have hlog' : s'.log = .replied irq orq (failureReply (crankedTo sip route a) sip) :: c.calls.log := by
    rw [hs', Calls.clearDialog_log]
    rfl
  rw [hlog, hlog']
  simp only [List.cons.injEq, CallEvent.replied.injEq, failureReply, crankedTo, Reply.mk.injEq,
    Option.some_inj, Prod.mk.injEq, true_and, and_true]
  exact and_congr eq_comm eq_comm

/-- The counts do not depend on the limit. -/
theorem mapTrunkStats_limitTo (c : Controller) (n : UInt32) (t : Option (ℕ × TerminationAttempt)) (status : ℤ) :
    (((c.limitTo n).check .inviteResponseNoCdr true).reportFailure t status).mapTrunkStats =
      ((c.check .inviteResponseNoCdr true).reportFailure t status).mapTrunkStats := by
  obtain ⟨asserts, h⟩ := check_frame (c.limitTo n) .failureCountStatus (UInt32.ofInt status < 700)
  obtain ⟨asserts', h'⟩ := check_frame c .failureCountStatus (UInt32.ofInt status < 700)
  change ((c.limitTo n).reportFailure t status).mapTrunkStats = (c.reportFailure t status).mapTrunkStats
  unfold reportFailure countFailure
  rw [h, h', show (c.limitTo n).mapTrunkStats = c.mapTrunkStats from rfl]
  rcases t with _ | ⟨t, a⟩
  · rfl
  · dsimp only
    split_ifs
    · cases c.mapTrunkStats a.sipTrunk <;> rfl
    · rfl

/-- **A crankback that cannot be started is visible**: it is reported twice, and the failure is
    passed on with the next route. Nobody sees it only if there is no writer, and the next route
    is the one that failed. `n` is a limit that has been reached. -/
theorem crankback_invisible_iff (hc : machine.Reachable c) (hreached : c.Reached orq)
    (ht : c.attemptOf orq = some (t, a)) (hcrank : c.CranksBack a sip)
    (hroute : c.config.getTerminationRouteForAltCarrier a.carrier = some (route, config))
    (hnta : ¬(nta.bLeg = true ∧ nta.orq = true)) {n : UInt32} (hn : ¬a.nAttemptCount < n - 1) :
    Alike ((c.limitTo n).processInviteResponseInsideDialog orq sip nta)
        (c.processInviteResponseInsideDialog orq sip nta) ↔
      c.cdrWriter = none ∧ route.carrier = a.carrier ∧ route.trunk.text = a.sipTrunk := by
  have hs := (typed_of_reachable hc).next_pos
  have hinv := attemptInv_of_reachable hc
  have hfinal : 200 ≤ sip.status := by rcases hcrank.1 with h | h <;> omega
  rw [inviteResponse_of_reached hreached, inviteResponse_of_reached (show (c.limitTo n).Reached orq from hreached)]
  change Alike ((c.limitTo n).processInviteResponse (c.calls.getAssociatedIncoming orq) orq
    (c.calls.legFromIncoming (c.calls.getAssociatedIncoming orq)) (c.calls.legFromOutgoing orq) sip nta) _ ↔ _
  generalize c.calls.getAssociatedIncoming orq = irq
  generalize c.calls.legFromIncoming irq = aLeg
  generalize c.calls.legFromOutgoing orq = bLeg
  -- Both runs of the handler, side by side.
  have hending₀ := @processInviteResponse_ending (c.limitTo n) orq t a sip hs ht hfinal irq aLeg bLeg nta
  have hending := processInviteResponse_ending hs ht hfinal irq aLeg bLeg nta
  have hstats₀ := @mapTrunkStats_inviteResponse (c.limitTo n) orq t a sip nta hs ht hcrank.1 hnta irq aLeg bLeg
  have hstats := mapTrunkStats_inviteResponse hs ht hcrank.1 hnta irq aLeg bLeg
  generalize (c.limitTo n).processInviteResponse irq orq aLeg bLeg sip nta = c₀ at hending₀ hstats₀ ⊢
  generalize c.processInviteResponse irq orq aLeg bLeg sip nta = c' at hending hstats ⊢
  obtain ⟨hcalls₀, hrecords₀⟩ := hending₀.of_limit hcrank.1 fun h => hn h.2.1
  obtain ⟨⟨k, hcalls⟩, hrecords⟩ := hending.of_refused hcrank hroute hnta
  obtain ⟨-, ha⟩ := attemptOf_eq_some ht
  have hown : (c.limitTo n).records.Own := ⟨hinv.own.lt, hinv.own.inj⟩
  obtain ⟨r₀, -, hposts₀⟩ := Records.posts_postCopy ha hown ((c.limitTo n).finalCopy .terminationAttempt sip.status)
  rw [← hrecords₀] at hposts₀
  obtain ⟨r, r', hposts⟩ := posts_crankbackFailed hinv ht hrecords
  -- One report, and two.
  have hposted := @queued_eq_iff c c₀ c' _ _ (by simp) hposts₀ hposts
  have hrelayed := relayed_eq_iff k hcalls₀ hcalls
  constructor
  · intro h
    exact ⟨hposted.1 h.posted, hrelayed.1 h.relayed⟩
  · rintro ⟨hwriter, hsame⟩
    refine ⟨hrelayed.2 hsame, hposted.2 hwriter, ?_, ?_⟩
    · rw [hcalls₀, hcalls]
      exact sameTables_failed c.calls k irq orq bLeg _ _
    · rw [hstats₀, hstats, mapTrunkStats_limitTo]

end

/-! ### An example: two carriers -/

/-- Two carriers with one trunk each. The second one has the charge number that is given. -/
def exampleCarriers (chargeNumber : Bytes) : SspConfig :=
  (SspConfig.load
    [{ name := ['c'], outbound := some { addresses := [{ address := ['t'] }], chargeNumber := ['8'] } },
      { name := ['d'], outbound := some { addresses := [{ address := ['u'] }], chargeNumber := chargeNumber } }]
    2 []).get rfl

/-- A controller with these carriers, and a server that is known to be one. -/
def exampleTrunks (chargeNumber : Bytes) : Controller :=
  { exampleStart with
    config := exampleCarriers chargeNumber
    nTerminationRetries := 2
    fsMonitor := { exampleStart.fsMonitor with setServers := {['f']} } }

/-- The server makes a call. The INVITE for the first carrier is `4`. -/
def exampleTrunkCall (chargeNumber : Bytes) : Controller :=
  (exampleTrunks chargeNumber).next Reporting.exampleServerCall

/-- The first carrier does not take the call. -/
def exampleUnavailable : Response := { status := 503, sipTo := { url := { user := some [] } } }

/-- An INVITE is sent for the call `4`, to the first route of another one that comes in then. -/
def exampleSends (c : Controller) (chargeNumber : Bytes) : Bool :=
  (c.attemptOf ⟨4⟩).any fun (_, a) =>
    (c.firstRoute a.sip).any fun (route₁, _) =>
      (c.config.getTerminationRouteForAltCarrier a.carrier).any fun (route₂, _) =>
        a.sip.sipTo.url.user = some [] ∧ route₁.trunk.text = route₂.trunk.text ∧
          route₁.carrier = route₂.carrier ∧ route₁.chargeNumber = route₂.chargeNumber ∧
          route₁.chargeNumber = chargeNumber ∧
          0 < (c.calls.sentOn (c.processInviteResponseInsideDialog ⟨4⟩ exampleUnavailable {}).calls).length

theorem exampleSends_spec {c : Controller} {chargeNumber : Bytes} (h : exampleSends c chargeNumber = true) :
    ∃ a route₁ route₂ r₁ r₂, exampleUnavailable.sipTo.url.user = a.sip.sipTo.url.user ∧
      Route.Same route₁ route₂ ∧ route₁.chargeNumber = chargeNumber ∧ c.FirstInvite a.sip route₁ r₁ ∧
      c.SendsNext a exampleUnavailable route₂ r₂ := by
  unfold exampleSends at h
  simp only [Option.any_eq_true, decide_eq_true_eq, Prod.exists] at h
  obtain ⟨t, a, ha, route₁, config₁, hroute₁, route₂, config₂, hroute₂, huser, htext, hcarrier, hnumber,
    hnumber', hsent⟩ := h
  obtain ⟨a₁, ha₁, -⟩ := newAttempt_attempt { c with config := config₁ } a.sip route₁
  exact ⟨a, route₁, route₂, _, _, huser.symm, ⟨htext, hcarrier, hnumber⟩, hnumber',
    ⟨config₁, a₁, hroute₁, ha₁, rfl⟩, ⟨⟨4⟩, t, {}, config₂, ha, .inl rfl, hroute₂, List.getElem_mem hsent⟩⟩

/-- With a charge number, the crankback sends what would have been sent first. -/
theorem crankback_agrees_exampleNumber : ∃ a route₁ route₂ r₁ r₂, Route.Same route₁ route₂ ∧
    (exampleTrunkCall ['9']).FirstInvite (TerminationAttempt.sip a) route₁ r₁ ∧
    (exampleTrunkCall ['9']).SendsFirst a.sip route₁ r₁ ∧
    (exampleTrunkCall ['9']).SendsNext a exampleUnavailable route₂ r₂ ∧
    r₂.url = r₁.url ∧ r₂.pChargeInfoHeaders = r₁.pChargeInfoHeaders := by
  have hs : 0 < (exampleTrunkCall ['9']).calls.next := by decide +kernel
  obtain ⟨a, route₁, route₂, r₁, r₂, hecho, hsame, hnumber, h₁, h₂⟩ :=
    exampleSends_spec (show exampleSends (exampleTrunkCall ['9']) ['9'] = true by decide +kernel)
  have hne : route₁.chargeNumber ≠ [] := by simp [hnumber]
  obtain ⟨hagrees, hsends⟩ := crankback_agrees_iff hs hs hsame h₁ h₂ hecho
  exact ⟨a, route₁, route₂, r₁, r₂, hsame, h₁, (hsends r₁).2 ⟨rfl, hne⟩, h₂, hagrees.2 hne⟩

/-- Without one, it adds a header for it. As a first route, it would not have been called at all. -/
theorem exampleTrunks_not_agree : ∃ a route₁ route₂ r₁ r₂,
    exampleUnavailable.sipTo.url.user = (TerminationAttempt.sip a).sipTo.url.user ∧ Route.Same route₁ route₂ ∧
      (exampleTrunkCall []).FirstInvite a.sip route₁ r₁ ∧ (∀ r, ¬(exampleTrunkCall []).SendsFirst a.sip route₁ r) ∧
      (exampleTrunkCall []).SendsNext a exampleUnavailable route₂ r₂ ∧
      ¬(r₂.url = r₁.url ∧ r₂.pChargeInfoHeaders = r₁.pChargeInfoHeaders) := by
  have hs : 0 < (exampleTrunkCall []).calls.next := by decide +kernel
  obtain ⟨a, route₁, route₂, r₁, r₂, hecho, hsame, hnumber, h₁, h₂⟩ :=
    exampleSends_spec (show exampleSends (exampleTrunkCall []) [] = true by decide +kernel)
  refine ⟨a, route₁, route₂, r₁, r₂, hecho, hsame, h₁, fun r hr => ?_, h₂, fun h => ?_⟩
  · exact ((h₁.sendsFirst_iff hs r).1 hr).2 hnumber
  have hheaders := h.2
  rw [h₁.spec.2, (h₂.spec hs).2, if_pos hnumber] at hheaders
  exact List.cons_ne_nil _ _ hheaders

theorem exampleTrunkCall_reachable : machine.Reachable (exampleTrunkCall []) := by
  have hinit : (exampleTrunks []).Initial := { exampleStart_initial with nTerminationRetries := by decide +kernel }
  have hstart : machine.Reachable (exampleTrunks []) := .init hinit
  have henabled : machine.enabled (exampleTrunks []) Reporting.exampleServerCall := ⟨trivial, by decide +kernel⟩
  exact hstart.step henabled

/-- The second carrier is tried, but nta does not grant a leg. -/
theorem crankback_invisible_exampleTrunks : ∃ a route,
    (exampleTrunkCall []).CranksBack a exampleUnavailable ∧
      (Alike (((exampleTrunkCall []).limitTo 1).processInviteResponseInsideDialog ⟨4⟩ exampleUnavailable
          { bLeg := false })
        ((exampleTrunkCall []).processInviteResponseInsideDialog ⟨4⟩ exampleUnavailable { bLeg := false }) ↔
        (exampleTrunkCall []).cdrWriter = none ∧ Route.carrier route = TerminationAttempt.carrier a ∧
          route.trunk.text = a.sipTrunk) := by
  have hcheck : ((exampleTrunkCall []).attemptOf ⟨4⟩).any (fun p =>
      (exampleTrunkCall []).CranksBack p.2 exampleUnavailable ∧ p.2.nAttemptCount = 0) = true := by decide +kernel
  obtain ⟨⟨t, a⟩, ha, h⟩ := (Option.any_eq_true _ _).1 hcheck
  obtain ⟨hcrank, hcount⟩ := of_decide_eq_true h
  obtain ⟨⟨route, config⟩, hroute⟩ := Option.ne_none_iff_exists'.1 hcrank.2.2
  refine ⟨a, route, hcrank, crankback_invisible_iff exampleTrunkCall_reachable (by decide +kernel) ha hcrank hroute
    (by simp) ?_⟩
  -- The count is `0`, and the limit of retries is `1`.
  exact hcount ▸ by decide

/-- There are two reports about the INVITE, and not one. -/
theorem exampleTrunks_visible : machine.Reachable (exampleTrunkCall []) ∧ (exampleTrunkCall []).Reached ⟨4⟩ ∧
    ((exampleTrunkCall []).attemptOf ⟨4⟩).any (fun p =>
      (exampleTrunkCall []).CranksBack p.2 exampleUnavailable ∧ ¬p.2.nAttemptCount < 1 - 1) = true ∧
    ¬Alike (((exampleTrunkCall []).limitTo 1).processInviteResponseInsideDialog ⟨4⟩ exampleUnavailable
        { bLeg := false })
      ((exampleTrunkCall []).processInviteResponseInsideDialog ⟨4⟩ exampleUnavailable { bLeg := false }) :=
  ⟨exampleTrunkCall_reachable, by decide +kernel, by decide +kernel, fun h => absurd h.posted (by decide +kernel)⟩

end Controller

end Ssp
