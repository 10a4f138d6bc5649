import Ssp.Controller.Counts

/-!
# The statistics against the records

What becomes of the INVITEs to a trunk is kept twice: in the statistics of the trunk, until they are
reset, and in the `termination_attempt` records, from which `getStatusCodeCounts` counts the failures
by their status. It leaves out 487, which is also written for a CANCEL.

`Reckoning` has the INVITEs that were sent and the records that were posted since the statistics were
reset. The attempts of a trunk are the INVITEs sent to it (`counted_of_reachable`). Its failures are the
records posted for it exactly as long as no crankback finds a carrier but no transaction
(`balanced_iff`): that one is recorded once more, for a trunk that no INVITE was sent to.
-/

namespace Ssp

namespace Controller

/-- The trunks of the INVITEs that are sent for attempts between two states. -/
def sentTo (c c' : Controller) : List Bytes :=
  (List.range c'.calls.next).filterMap fun n =>
    if (c.calls.outgoing ⟨n⟩).isNone then (c'.attemptOf ⟨n⟩).map fun p => p.2.sipTrunk else none

/-- The failure that an event counts: for which trunk, and with which status. -/
def failure? (c : Controller) : ControllerEvent → Option (Bytes × ℕ)
  | .inviteResponse orq sip _ => (c.failed? orq sip).map fun a => (a.sipTrunk, sip.status.toNat)
  | _ => none

/-- The trunk of a crankback that fails, to which no INVITE is sent, with the status of the response. -/
def stray? (c : Controller) : ControllerEvent → Option (Bytes × ℕ)
  | .inviteResponse orq sip nta =>
    if c.Reached orq ∧ ¬Granted nta then
      (c.attemptOf orq).bind fun p =>
        if c.CranksBack p.2 sip then
          (c.config.getTerminationRouteForAltCarrier p.2.carrier).map fun r => (r.1.trunk.text, sip.status.toNat)
        else none
    else none
  | _ => none

end Controller

/-- The trunk and the status that a record is about. -/
def CdrInfo.entry (cdr : CdrInfo) : Bytes × ℕ := (cdr.terminatingCarrierAddress, cdr.sipStatus.toNat)

/-- The controller, with the trunks of the INVITEs that were sent, and the `termination_attempt`
    records that were posted, since the statistics were reset. -/
structure Reckoning extends Auditing where
  invites : List Bytes := []
  reports : List CdrInfo := []

/-- A status is an `int`. -/
def ControllerEvent.Fits : ControllerEvent → Prop
  | .inviteResponse _ sip _ => sip.status < 2 ^ 31
  | _ => True

namespace Reckoning

def next (x : Reckoning) (e : ControllerEvent) : Reckoning where
  toAuditing := x.toAuditing.next e
  invites :=
    match e with
    | .resetTrunkStats => []
    | _ => x.invites ++ x.controller.sentTo (x.controller.next e)
  reports :=
    match e with
    | .resetTrunkStats => []
    | _ =>
      x.reports ++ ((x.toReporting.next e).posted.drop x.posted.length).filter fun r => r.cdrType = .terminationAttempt

/-- The runs with a writer, of a process that has just started. -/
def machine : Machine Reckoning ControllerEvent where
  init := { x | x.toAuditing ∈ Auditing.machine.init ∧ (x.controller.mapTrunkStats = fun _ => none) ∧
    x.invites = [] ∧ x.reports = [] }
  enabled x e := Auditing.machine.enabled x.toAuditing e ∧ e.Fits
  next := next

/-- How many records are about a trunk and a status. -/
def recorded (x : Reckoning) (trunk : Bytes) (status : ℕ) : ℕ := (x.reports.map CdrInfo.entry).count (trunk, status)

/-- The attempts of each trunk are the INVITEs that were sent to it. -/
def Counted (x : Reckoning) : Prop :=
  ∀ trunk, x.controller.tally.attempts trunk = UInt32.ofNat (x.invites.count trunk)

/-- The failures of each trunk are the records about it, until the number of its attempts wraps. -/
def Balanced (x : Reckoning) : Prop :=
  ∀ trunk, x.invites.count trunk < 2 ^ 32 → ∀ status, 400 ≤ status → status < 700 → status ≠ 487 →
    x.controller.tally.fails trunk status = UInt32.ofNat (x.recorded trunk status)

/-- No record is made for a trunk to which no INVITE is sent. -/
def Straight (x : Reckoning) (e : ControllerEvent) : Prop :=
  ∀ trunk status, x.controller.stray? e = some (trunk, status) → 2 ^ 32 ≤ x.invites.count trunk

structure Inv (x : Reckoning) : Prop where
  audit : x.toAuditing.Inv
  known : ∀ orq i, x.sent orq = some i → x.controller.tally.trunks i.details.terminatingCarrierAddress ≠ none
  counted : x.Counted

section

variable {x : Reckoning} {e : ControllerEvent} {c c' : Controller} {y : Tally} {orq : Orq} {t : ℕ}
  {a : TerminationAttempt} {status : ℤ} {trunk : Bytes}

/-! ## What is sent -/

/-- One element at most is kept. -/
theorem filterMap_eq_singleton {α β : Type*} {f : α → Option β} {l : List α} {x : α} {v : β} (hnodup : l.Nodup)
    (hx : x ∈ l) (hv : f x = some v) (honly : ∀ z ∈ l, z ≠ x → f z = none) : l.filterMap f = [v] := by
  obtain ⟨l₁, l₂, rfl⟩ := List.append_of_mem hx
  have hmiddle := List.nodup_middle.1 hnodup
  have hne : ∀ z ∈ l₁ ++ l₂, z ≠ x := fun z hz heq => (List.nodup_cons.1 hmiddle).1 (heq ▸ hz)
  have hnone : ∀ l' : List α, (∀ z ∈ l', z ∈ l₁ ++ l₂) → l'.filterMap f = [] := fun l' hl' =>
    List.filterMap_eq_nil_iff.2 fun z hz => honly z
      (List.perm_middle.symm.subset (List.mem_cons_of_mem x (hl' z hz))) (hne z (hl' z hz))
  rw [List.filterMap_append, List.filterMap_cons_some hv, hnone l₁ fun z hz => List.mem_append_left l₂ hz,
    hnone l₂ fun z hz => List.mem_append_right l₁ hz]
  rfl

theorem sentTo_of_none (hnone : ∀ orq, c.calls.outgoing orq = none → c'.attemptOf orq = none) :
    c.sentTo c' = [] := by
  refine List.filterMap_eq_nil_iff.2 fun n _ => ?_
  split_ifs with hn
  · rw [hnone ⟨n⟩ (Option.isNone_iff_eq_none.1 hn)]
    rfl
  · rfl

theorem sentTo_of_one (hs : c'.calls.Typed) (hold : c.calls.outgoing orq = none) (hnew : c'.attemptOf orq = some (t, a))
    (honly : ∀ orq' ≠ orq, c.calls.outgoing orq' = none → c'.attemptOf orq' = none) : c.sentTo c' = [a.sipTrunk] := by
  have hlt : orq.address < c'.calls.next := by
    refine hs.attempt_lt orq ?_
    rw [(Controller.attemptOf_eq_some hnew).1]
    exact Option.some_ne_none t
  refine filterMap_eq_singleton List.nodup_range (List.mem_range.2 hlt) ?_ fun n _ hne => ?_
  · rw [if_pos (Option.isNone_iff_eq_none.2 hold), hnew]
    rfl
  · split_ifs with hn
    · rw [honly ⟨n⟩ (fun heq => hne (congrArg Handle.address heq)) (Option.isNone_iff_eq_none.1 hn)]
      rfl
    · rfl

/-! ## What is recorded -/

theorem toNat_ofInt (hfinal : 200 ≤ status) (hfits : status < 2 ^ 31) : (UInt32.ofInt status).toNat = status.toNat := by
  rw [UInt32.ofInt, UInt32.toNat_ofNat']
  omega

/-- What a record about a final response is about. -/
theorem entry_finalCopy (hfinal : 200 ≤ status) (hfits : status < 2 ^ 31) (c : Controller) (cdr : CdrInfo) :
    (c.finalCopy .terminationAttempt status cdr).entry = (cdr.terminatingCarrierAddress, status.toNat) := by
  refine Prod.ext ?_ ?_
  · exact congrArg Details.terminatingCarrierAddress (c.finalCopy_details .terminationAttempt status cdr)
  · change (c.finalCopy .terminationAttempt status cdr).sipStatus.toNat = _
    rw [(c.finalCopy_isReport .terminationAttempt status).sipStatus cdr, toNat_ofInt hfinal hfits]

theorem count_singleton (p q : Bytes × ℕ) : [p].count q = if p = q then 1 else 0 := by
  rw [List.count_singleton]
  by_cases h : p = q <;> simp [h]

theorem failure?_of_attempt {sip : Response} (hreached : c.Reached orq) (ht : c.attemptOf orq = some (t, a))
    (nta : Creations) : c.failure? (.inviteResponse orq sip nta) =
      if 400 ≤ sip.status ∧ sip.status ≤ 700 then some (a.sipTrunk, sip.status.toNat) else none := by
  rw [Controller.failure?, Controller.failed?]
  by_cases hstatus : 400 ≤ sip.status ∧ sip.status ≤ 700
  · have hcounted : c.Reached orq ∧ 400 ≤ sip.status ∧ sip.status ≤ 700 := ⟨hreached, hstatus⟩
    rw [if_pos hcounted, if_pos hstatus, ht]
    rfl
  · have hcounted : ¬(c.Reached orq ∧ 400 ≤ sip.status ∧ sip.status ≤ 700) := fun h => hstatus h.2
    rw [if_neg hcounted, if_neg hstatus]
    rfl

theorem stray?_of_attempt {sip : Response} (hreached : c.Reached orq) (ht : c.attemptOf orq = some (t, a))
    (nta : Creations) : c.stray? (.inviteResponse orq sip nta) =
      if c.CranksBack a sip ∧ ¬Controller.Granted nta then
        (c.config.getTerminationRouteForAltCarrier a.carrier).map fun r => (r.1.trunk.text, sip.status.toNat)
      else none := by
  rw [Controller.stray?, ht, Option.bind_some]
  by_cases hnta : Controller.Granted nta
  · rw [if_neg (not_and_of_not_right _ (not_not.2 hnta)), if_neg (not_and_of_not_right _ (not_not.2 hnta))]
  · rw [if_pos ⟨hreached, hnta⟩]
    by_cases hcrank : c.CranksBack a sip
    · rw [if_pos hcrank, if_pos ⟨hcrank, hnta⟩]
    · rw [if_neg hcrank, if_neg fun h : _ ∧ _ => hcrank h.1]

theorem entries_reported {sip : Response} {cdr : CdrInfo} (hreached : c.Reached orq)
    (ht : c.attemptOf orq = some (t, a)) (hfinal : 200 ≤ sip.status) (hfits : sip.status < 2 ^ 31)
    (haddress : cdr.terminatingCarrierAddress = a.sipTrunk) (nta : Creations)
    (hredirect : ¬((300 ≤ sip.status ∧ sip.status ≤ 399) ∧ Controller.Granted nta)) :
    ((c.reported a cdr (.inviteResponse orq sip nta)).map (c.finalCopy .terminationAttempt sip.status)).map
        CdrInfo.entry =
      (a.sipTrunk, sip.status.toNat) :: (c.stray? (.inviteResponse orq sip nta)).toList := by
  have hentry := fun cdr => entry_finalCopy hfinal hfits c cdr
  rw [stray?_of_attempt hreached ht]
  unfold Controller.reported
  dsimp only
  rw [if_neg hredirect]
  by_cases hcrank : c.CranksBack a sip ∧ ¬Controller.Granted nta
  · rw [if_pos hcrank, if_pos hcrank, List.map_cons, List.map_cons, hentry, haddress]
    cases c.config.getTerminationRouteForAltCarrier a.carrier with
    | none => rfl
    | some r =>
      refine congrArg _ ?_
      change [(c.finalCopy .terminationAttempt sip.status (Controller.setRoute r.1 cdr)).entry] = _
      rw [hentry]
      rfl
  · rw [if_neg hcrank, if_neg hcrank, List.map_singleton, List.map_singleton, hentry, haddress]
    rfl

/-- **What is recorded** of a final response: the failure, and what goes to the wrong trunk. -/
theorem count_reported {cdr : CdrInfo} (hends : c.Ends orq t a status e) (hfits : e.Fits)
    (haddress : cdr.terminatingCarrierAddress = a.sipTrunk) {s : ℕ} (hs : 400 ≤ s ∧ s < 700 ∧ s ≠ 487) :
    (((c.reported a cdr e).map (c.finalCopy .terminationAttempt status)).map CdrInfo.entry).count (trunk, s) =
      (if c.failure? e = some (trunk, s) then 1 else 0) + if c.stray? e = some (trunk, s) then 1 else 0 := by
  cases e with
  | inviteResponse orq' sip nta =>
    obtain ⟨rfl, rfl, hfinal, hreached, ht⟩ := hends
    rw [failure?_of_attempt hreached ht]
    by_cases hredirect : (300 ≤ sip.status ∧ sip.status ≤ 399) ∧ Controller.Granted nta
    · have hcrank : ¬(c.CranksBack a sip ∧ ¬Controller.Granted nta) := fun h => h.2 hredirect.2
      have hcounted : ¬(400 ≤ sip.status ∧ sip.status ≤ 700) := by omega
      rw [stray?_of_attempt hreached ht, if_neg hcrank, if_neg hcounted, Controller.reported, if_pos hredirect]
      rfl
    · rw [entries_reported hreached ht hfinal hfits haddress nta hredirect, List.count_cons, Nat.add_comm]
      congr 1
      · by_cases hcounted : 400 ≤ sip.status ∧ sip.status ≤ 700
        · rw [if_pos hcounted]
          simp
        · rw [if_neg hcounted, if_neg, if_neg]
          · exact nofun
          · intro heq
            have hstatus := (Prod.mk.inj (eq_of_beq heq)).2
            omega
      · cases c.stray? (.inviteResponse orq' sip nta) with
        | none => rfl
        | some p =>
          rw [Option.toList_some, count_singleton]
          exact if_congr Option.some_inj.symm rfl rfl
  | ackOrCancel irq method =>
    obtain ⟨-, -, -, -, rfl, -⟩ := hends
    have hentry := entry_finalCopy (show (200 : ℤ) ≤ 487 by decide) (by decide) c cdr
    change [(c.finalCopy .terminationAttempt 487 cdr).entry].count (trunk, s) = 0
    rw [hentry, count_singleton, if_neg]
    intro heq
    exact hs.2.2 (Prod.mk.inj heq).2.symm
  | _ => exact hends.elim

/-- Where no INVITE gets its final response, nothing fails. -/
theorem failure?_eq_none (hends : ∀ orq t a status, ¬c.Ends orq t a status e) :
    c.failure? e = none ∧ c.stray? e = none := by
  cases e with
  | inviteResponse orq sip nta =>
    have hnone : c.Reached orq → 200 ≤ sip.status → c.attemptOf orq = none := by
      intro hreached hfinal
      rw [Option.eq_none_iff_forall_ne_some]
      exact fun p ht => hends orq p.1 p.2 sip.status ⟨rfl, rfl, hfinal, hreached, ht⟩
    constructor
    · rw [Controller.failure?, Controller.failed?]
      split_ifs with hcounted
      · rw [hnone hcounted.1 (by omega)]
        rfl
      · rfl
    · rw [Controller.stray?]
      split_ifs with hreached
      · cases ht : c.attemptOf orq with
        | none => rfl
        | some p =>
          rw [Option.bind_some, if_neg]
          intro hcrank
          have hstatus : 200 ≤ sip.status := by rcases hcrank.1 with h | h <;> omega
          rw [hnone hreached.1 hstatus] at ht
          cases ht
      · rfl
  | _ => exact ⟨rfl, rfl⟩

theorem reports_next (hreset : e ≠ .resetTrunkStats) {new : List CdrInfo}
    (hposted : (x.toAuditing.next e).posted = x.posted ++ new) :
    (x.next e).reports = x.reports ++ new.filter fun r => r.cdrType = .terminationAttempt := by
  have heq : (x.next e).reports = x.reports ++
      ((x.toAuditing.next e).posted.drop x.posted.length).filter fun r => r.cdrType = .terminationAttempt := by
    cases e <;> first | rfl | exact absurd rfl hreset
  rw [heq, hposted, List.drop_left]

theorem invites_next (hreset : e ≠ .resetTrunkStats) :
    (x.next e).invites = x.invites ++ x.controller.sentTo (x.controller.next e) := by
  cases e <;> first | rfl | exact absurd rfl hreset

/-- **The records after an event**: a failure is recorded, and a crankback that fails once more. -/
theorem Inv.recorded_next (h : x.Inv) (he : machine.enabled x e) (hreset : e ≠ .resetTrunkStats) {s : ℕ}
    (hs : 400 ≤ s ∧ s < 700 ∧ s ≠ 487) (trunk : Bytes) : (x.next e).recorded trunk s = x.recorded trunk s +
      ((if x.controller.failure? e = some (trunk, s) then 1 else 0) +
        if x.controller.stray? e = some (trunk, s) then 1 else 0) := by
  obtain ⟨he, hfits⟩ := he
  by_cases hends : ∃ orq t a status, x.controller.Ends orq t a status e
  · obtain ⟨orq, t, a, status, hends⟩ := hends
    obtain ⟨i, cdr, hsent, hcdr, hdetails, hcarrier, haddress⟩ := h.audit.record hends.attemptOf
    have haddress' : cdr.terminatingCarrierAddress = a.sipTrunk :=
      (congrArg Details.terminatingCarrierAddress hdetails).trans haddress.symm
    have hwrite : ∀ connected, e ≠ .writeCdr connected := by
      rintro connected rfl
      exact hends
    have hposts := (Controller.ends_next h.audit.typed h.audit.attempts he.1 hends hcdr
      ((congrArg Details.terminatingCarrier hdetails).trans hcarrier.symm) haddress' cdr.tmStart fun _ _ _ => rfl).1
    have htype : ((x.controller.reported a cdr e).map (x.controller.finalCopy .terminationAttempt status)).filter
        (fun r => r.cdrType = .terminationAttempt) =
          (x.controller.reported a cdr e).map (x.controller.finalCopy .terminationAttempt status) := by
      refine List.filter_eq_self.2 fun r hr => ?_
      obtain ⟨r₀, -, rfl⟩ := List.mem_map.1 hr
      exact decide_eq_true ((x.controller.finalCopy_isReport _ _).type r₀)
    rw [recorded, reports_next hreset (Reporting.posted_next h.audit.toInv hwrite hposts), htype, List.map_append,
      List.count_append, count_reported hends hfits haddress' hs]
    rfl
  · have hnot : ∀ orq t a status, ¬x.controller.Ends orq t a status e := fun orq t a status hends' =>
      hends ⟨orq, t, a, status, hends'⟩
    obtain ⟨hfailure, hstray⟩ := failure?_eq_none hnot
    rw [hfailure, hstray, if_neg (Option.some_ne_none _).symm]
    obtain ⟨new, hposted, hnew⟩ : ∃ new, (x.toAuditing.next e).posted = x.posted ++ new ∧
        ∀ r ∈ new, r.cdrType ≠ .terminationAttempt := by
      by_cases hwrite : ∃ connected, e = .writeCdr connected
      · obtain ⟨connected, rfl⟩ := hwrite
        refine ⟨[], ?_, fun r hr => absurd hr List.not_mem_nil⟩
        rw [List.append_nil]
        exact Reporting.posted_writeCdr x.toReporting connected
      · have hwrite' : ∀ connected, e ≠ .writeCdr connected := fun connected heq => hwrite ⟨connected, heq⟩
        obtain ⟨new, hposts, hnew⟩ := (Controller.spares_next he.1 hwrite' hnot).posts
        exact ⟨new, Reporting.posted_next h.audit.toInv hwrite' hposts, hnew⟩
    have hnone : new.filter (fun r => r.cdrType = .terminationAttempt) = [] :=
      List.filter_eq_nil_iff.2 fun r hr => by simp [hnew r hr]
    rw [recorded, reports_next hreset hposted, hnone, List.append_nil]
    rfl

/-! ## What is counted -/

theorem settled_attempts (hreset : e ≠ .resetTrunkStats) (trunk : Bytes) :
    (c.settled e).attempts trunk = c.tally.attempts trunk := by
  cases e with
  | inviteResponse orq sip nta =>
    rw [Controller.settled]
    cases c.failed? orq sip with
    | none => rfl
    | some a => exact Tally.attempts_failure _ _ _ _
  | resetTrunkStats => exact absurd rfl hreset
  | _ => rfl

theorem settled_known (h : c.tally.trunks trunk ≠ none) (e : ControllerEvent) :
    (c.settled e).trunks trunk ≠ none := by
  cases e with
  | inviteResponse orq sip nta =>
    rw [Controller.settled]
    cases c.failed? orq sip with
    | none => exact h
    | some a => exact Tally.failure_known h _ _
  | resetTrunkStats => exact Tally.reset_known h
  | _ => exact h

/-- The failure that is counted is one of a trunk that is known. -/
theorem Inv.settled_fails (h : x.Inv) (hreset : e ≠ .resetTrunkStats) (hfits : e.Fits) {s : ℕ} (hs : s < 700)
    (trunk : Bytes) : (x.controller.settled e).fails trunk s = x.controller.tally.fails trunk s +
      if x.controller.failure? e = some (trunk, s) then 1 else 0 := by
  cases e with
  | inviteResponse orq sip nta =>
    rw [Controller.settled, Controller.failure?]
    cases hfailed : x.controller.failed? orq sip with
    | none =>
      rw [Option.map_none, if_neg (Option.some_ne_none _).symm, UInt32.add_zero]
      rfl
    | some a =>
      have hstatus := Controller.failed?_status hfailed
      obtain ⟨t, ht⟩ : ∃ t, x.controller.attemptOf orq = some (t, a) := by
        unfold Controller.failed? at hfailed
        split_ifs at hfailed
        obtain ⟨⟨t, a'⟩, ht, rfl⟩ := Option.map_eq_some_iff.1 hfailed
        exact ⟨t, ht⟩
      obtain ⟨i, -, hsent, -, -, -, haddress⟩ := h.audit.record ht
      have hknown : x.controller.tally.trunks a.sipTrunk ≠ none := haddress ▸ h.known orq i hsent
      rw [Option.elim_some, Tally.fails_failure _ _ _ hknown _ hs, toNat_ofInt (by omega) hfits, Option.map_some]
      refine congrArg _ (if_congr ?_ rfl rfl)
      rw [Option.some_inj, Prod.mk.injEq, eq_comm (a := trunk), eq_comm (a := s)]
  | resetTrunkStats => exact absurd rfl hreset
  | _ => exact (UInt32.add_zero _).symm

theorem ofNat_add (n k : ℕ) : UInt32.ofNat (n + k) = UInt32.ofNat n + UInt32.ofNat k := by
  refine UInt32.toNat_inj.1 ?_
  rw [UInt32.toNat_add, UInt32.toNat_ofNat', UInt32.toNat_ofNat', UInt32.toNat_ofNat', ← Nat.add_mod]

theorem ofNat_ite (p : Prop) [Decidable p] : UInt32.ofNat (if p then 1 else 0) = if p then 1 else 0 := by
  split_ifs <;> rfl

/-- **An event sends what it counts.** -/
inductive Sends (x : Reckoning) (e : ControllerEvent) : Prop
  | none (hinvites : (x.next e).invites = x.invites) (hsent : ∀ orq, (x.next e).sent orq = x.sent orq)
      (htally : (x.next e).controller.tally = x.controller.settled e)
  | one (orq : Orq) (trunk carrier : Bytes) (hinvites : (x.next e).invites = x.invites ++ [trunk])
      (hsent : ∀ orq' i, (x.next e).sent orq' = some i → x.sent orq' = some i ∨
        i.details.terminatingCarrierAddress = trunk)
      (htally : (x.next e).controller.tally = (x.controller.settled e).attempt trunk carrier)

/-- An INVITE is sent where an attempt comes in. -/
theorem sent_cases {i : Invite} (hsent : (x.next e).sent orq = some i) : x.sent orq = some i ∨
    x.controller.calls.outgoing orq = none ∧ ∃ t a, (x.controller.next e).attemptOf orq = some (t, a) ∧
      i = x.invite e a := by
  change (if _ then _ else _ : Option Invite) = some i at hsent
  split_ifs at hsent with hnone
  · cases ha : (x.controller.next e).attemptOf orq with
    | none =>
      rw [ha] at hsent
      exact .inl hsent
    | some p =>
      rw [ha] at hsent
      exact .inr ⟨Option.isNone_iff_eq_none.1 hnone, p.1, p.2, rfl, (Option.some_inj.1 hsent).symm⟩
  · exact .inl hsent

theorem Inv.sends (h : x.Inv) (he : machine.enabled x e) (hreset : e ≠ .resetTrunkStats) : x.Sends e := by
  have hinvites := Reckoning.invites_next (x := x) hreset
  cases Controller.invites_next h.audit.typed h.audit.attempts he.1.1 with
  | none hnone htally =>
    refine .none ?_ (fun orq => ?_) htally
    · rw [hinvites, sentTo_of_none hnone, List.append_nil]
    · change (if _ then _ else _ : Option Invite) = _
      split_ifs with hn
      · rw [hnone orq (Option.isNone_iff_eq_none.1 hn)]
        rfl
      · rfl
  | one orq t a hold hnew honly htally =>
    refine .one orq a.sipTrunk a.carrier ?_ (fun orq' i hsent => ?_) htally
    · rw [hinvites, sentTo_of_one (Controller.typed_next h.audit.typed he.1.1) hold hnew honly]
    · rcases sent_cases hsent with hold' | ⟨hnone, t', a', ha', rfl⟩
      · exact .inl hold'
      · obtain rfl : orq' = orq := by
          by_contra hne
          rw [honly orq' hne hnone] at ha'
          cases ha'
        obtain ⟨-, rfl⟩ := Prod.mk.inj (Option.some_inj.1 (hnew.symm.trans ha'))
        exact .inr rfl

theorem Inv.next (h : x.Inv) (he : machine.enabled x e) : (x.next e).Inv := by
  have haudit := h.audit.next he.1
  by_cases hreset : e = .resetTrunkStats
  · subst hreset
    refine ⟨haudit, fun orq i hi => ?_, fun trunk => ?_⟩
    · rcases sent_cases hi with hold | ⟨hnone, t, a, ha, -⟩
      · exact Tally.reset_known (h.known orq i hold)
      · have ht := (Controller.attemptOf_eq_some ha).1
        rw [show (x.controller.next .resetTrunkStats).calls = x.controller.calls from rfl,
          h.audit.attempts.attempt_of_new hnone] at ht
        cases ht
    · exact Tally.attempts_reset x.controller.tally trunk
  · cases h.sends he hreset with
    | none hinvites hsent htally =>
      refine ⟨haudit, fun orq i hi => ?_, fun trunk => ?_⟩
      · rw [htally]
        exact settled_known (h.known orq i (hsent orq ▸ hi)) e
      · rw [htally, hinvites, settled_attempts hreset]
        exact h.counted trunk
    | one orq trunk carrier hinvites hsent htally =>
      refine ⟨haudit, fun orq' i hi => ?_, fun trunk' => ?_⟩
      · rw [htally]
        rcases hsent orq' i hi with hold | rfl
        · exact Tally.attempt_known (settled_known (h.known orq' i hold) e) _ _
        · exact Tally.attempt_known_self _ _ _
      · rw [htally, hinvites, Tally.attempts_attempt, settled_attempts hreset, h.counted trunk', List.count_append,
          List.count_singleton, ofNat_add]
        refine congrArg _ ?_
        rw [ofNat_ite]
        refine if_congr ?_ rfl rfl
        exact ⟨fun heq => beq_iff_eq.2 heq.symm, fun heq => (eq_of_beq heq).symm⟩

/-! ## The failures -/

/-- What has wrapped stays so. -/
theorem Inv.fails_next (h : x.Inv) (he : machine.enabled x e) (hreset : e ≠ .resetTrunkStats)
    (hcount : (x.next e).invites.count trunk < 2 ^ 32) {s : ℕ} (hs : s < 700) : x.invites.count trunk < 2 ^ 32 ∧
      (x.next e).controller.tally.fails trunk s = x.controller.tally.fails trunk s +
        if x.controller.failure? e = some (trunk, s) then 1 else 0 := by
  rw [← h.settled_fails hreset he.2 hs trunk]
  cases h.sends he hreset with
  | none hinvites hsent htally =>
    rw [hinvites] at hcount
    exact ⟨hcount, congrArg (Tally.fails · trunk s) htally⟩
  | one orq trunk' carrier hinvites hsent htally =>
    rw [hinvites, List.count_append] at hcount
    refine ⟨by omega, ?_⟩
    rw [htally, Tally.fails_attempt]
    rintro rfl
    rw [settled_attempts hreset, h.counted trunk, ← UInt32.toNat_inj.ne, UInt32.toNat_add, UInt32.toNat_ofNat']
    rw [List.count_singleton_self] at hcount
    change _ ≠ 0
    rw [UInt32.toNat_one]
    omega

/-- A crankback that fails sends no INVITE. -/
theorem Inv.stray_cases (h : x.Inv) (he : machine.enabled x e) {s : ℕ}
    (hstray : x.controller.stray? e = some (trunk, s)) :
    (x.next e).invites = x.invites ∧ (400 ≤ s ∧ s < 700 ∧ s ≠ 487) := by
  cases e with
  | inviteResponse orq sip nta =>
    rw [Controller.stray?] at hstray
    split_ifs at hstray with hnta
    obtain ⟨p, hp, hstray⟩ := Option.bind_eq_some_iff.1 hstray
    split_ifs at hstray with hcrank
    obtain ⟨r, -, heq⟩ := Option.map_eq_some_iff.1 hstray
    obtain ⟨-, rfl⟩ := Prod.mk.inj heq
    refine ⟨?_, by rcases hcrank.1 with h | h <;> rw [h] <;> decide⟩
    rw [Reckoning.invites_next (x := x) ControllerEvent.noConfusion, sentTo_of_none, List.append_nil]
    intro orq' hnone
    refine Controller.attemptOf_of_none ?_
    have hold := h.audit.attempts.attempt_of_new hnone
    cases Controller.turn_next h.audit.typed h.audit.attempts he.1.1 with
    | idle hidle hbecomes => rw [hbecomes.attempts, hold]
    | answered hreached hfinal hretries hbecomes => rw [hbecomes.attempts, Function.update_apply, hold, ite_self]
    | replaced orqNew t hreached hfinal hretries ht horq hbecomes =>
      exact absurd ((Controller.retries_iff hp sip nta).1 hretries).2 hnta.2
  | _ => cases hstray

theorem ofNat_succ_ne (n : ℕ) : UInt32.ofNat (n + 1) ≠ UInt32.ofNat n := by
  intro heq
  have hnat := congrArg UInt32.toNat heq
  rw [UInt32.toNat_ofNat', UInt32.toNat_ofNat'] at hnat
  omega

/-- **A step keeps the balance** exactly if it makes no record for a trunk that no INVITE is sent to. -/
theorem Inv.balanced_next_iff (h : x.Inv) (hbalanced : x.Balanced) (he : machine.enabled x e) :
    (x.next e).Balanced ↔ x.Straight e := by
  by_cases hreset : e = .resetTrunkStats
  · subst hreset
    refine iff_of_true (fun trunk _ status _ _ _ => ?_) fun trunk status hstray => by cases hstray
    exact Tally.fails_reset x.controller.tally trunk status
  · constructor
    · intro hnext trunk status hstray
      by_contra hlt
      obtain ⟨hinvites, hstatus⟩ := h.stray_cases he hstray
      have hcount := not_le.1 hlt
      have hcount' : (x.next e).invites.count trunk < 2 ^ 32 := hinvites ▸ hcount
      obtain ⟨-, hfails⟩ := h.fails_next he hreset hcount' hstatus.2.1
      have heq := hnext trunk hcount' status hstatus.1 hstatus.2.1 hstatus.2.2
      rw [hfails, h.recorded_next he hreset hstatus, if_pos hstray, hbalanced trunk hcount status hstatus.1 hstatus.2.1
        hstatus.2.2, ← ofNat_ite, ← ofNat_add, ← Nat.add_assoc] at heq
      exact ofNat_succ_ne _ heq.symm
    · intro hstraight trunk hcount status hlow hhigh hne
      obtain ⟨hcount', hfails⟩ := h.fails_next he hreset hcount hhigh
      have hstray : x.controller.stray? e ≠ some (trunk, status) := fun heq =>
        absurd (hstraight trunk status heq) (not_le.2 hcount')
      rw [hfails, h.recorded_next he hreset ⟨hlow, hhigh, hne⟩, if_neg hstray, Nat.add_zero, ofNat_add, ofNat_ite,
        hbalanced trunk hcount' status hlow hhigh hne]

/-! ## All runs -/

theorem inv_init (hx : x ∈ machine.init) : x.Inv ∧ x.Balanced := by
  obtain ⟨haudit, hstats, hinvites, hreports⟩ := hx
  obtain ⟨hinv, -⟩ := Auditing.inv_init haudit
  have htrunks : ∀ trunk, x.controller.tally.trunks trunk = none := fun trunk => congrFun hstats trunk
  refine ⟨⟨hinv, fun orq i hi => ?_, fun trunk => ?_⟩, fun trunk _ status _ _ _ => ?_⟩
  · rw [haudit.2.1] at hi
    cases hi
  · rw [Tally.attempts, htrunks, hinvites]
    rfl
  · rw [Tally.fails, htrunks, recorded, hreports]
    rfl

/-- **The attempts are exact**: in every reachable state, the attempts of a trunk are the INVITEs that
    were sent to it since the statistics were reset, modulo the size of the counter. -/
theorem counted_of_reachable (hx : machine.Reachable x) : x.Counted :=
  (hx.invariant (I := Inv) (fun _ hx => (inv_init hx).1) fun _ _ h he => h.next he).counted

/-- **The failures are balanced** in all states of a run exactly if no record is made in it for a trunk
    to which no INVITE is sent. -/
theorem balanced_iff {es : List ControllerEvent} (hrun : machine.IsRun x es) :
    machine.Always Balanced x es ↔ machine.Along Straight x es := by
  obtain ⟨hinv, hbalanced⟩ := inv_init hrun.1
  exact Machine.always_iff_along (I := Inv) (fun _ _ h _ he _ => h.next he)
    (fun _ _ h hbalanced he => h.balanced_next_iff hbalanced he) hinv hbalanced hrun.2

end

/-! ## An example -/

/-- Only the records and the statuses matter for what may happen. -/
theorem along_enabled {x : Reckoning} {es : List ControllerEvent}
    (h : Auditing.machine.Along Auditing.machine.enabled x.toAuditing es) (hfits : ∀ e ∈ es, e.Fits) :
    machine.Along machine.enabled x es := by
  induction es generalizing x with
  | nil => trivial
  | cons e es ih =>
    exact ⟨⟨h.1, hfits e List.mem_cons_self⟩, ih h.2 fun e' he' => hfits e' (List.mem_cons_of_mem e he')⟩

def exampleReckoning : Reckoning := { Auditing.exampleAuditing with }

theorem exampleReckoning_isRun :
    machine.IsRun exampleReckoning [Reporting.exampleServerCall, Reporting.exampleRefusal] := by
  refine ⟨⟨Auditing.exampleAuditing_init, rfl, rfl, rfl⟩, along_enabled ?_ ?_⟩
  · exact (Auditing.isRun_exampleAuditing (by decide +kernel)).2
  · intro e he
    rcases List.mem_cons.1 he with rfl | he
    · trivial
    · obtain rfl := List.mem_singleton.1 he
      exact show (486 : ℤ) < 2 ^ 31 by decide

/-- One INVITE was sent to the trunk. -/
theorem counted_exampleRefusal :
    (machine.exec exampleReckoning [Reporting.exampleServerCall, Reporting.exampleRefusal]).invites = [['t']] ∧
      (machine.exec exampleReckoning [Reporting.exampleServerCall, Reporting.exampleRefusal]).Counted :=
  ⟨by decide +kernel, counted_of_reachable (Machine.Reachable.exec (.init exampleReckoning_isRun.1)
    exampleReckoning_isRun.2)⟩

/-- It was refused with a 486, which is counted and recorded. -/
theorem balanced_exampleRefusal :
    machine.Always Balanced exampleReckoning [Reporting.exampleServerCall, Reporting.exampleRefusal] := by
  refine (balanced_iff exampleReckoning_isRun).2 ⟨fun trunk status hstray => ?_, fun trunk status hstray => ?_, trivial⟩
  · cases hstray
  · have hnone : (machine.next exampleReckoning Reporting.exampleServerCall).controller.stray?
        Reporting.exampleRefusal = none := by decide +kernel
    rw [hnone] at hstray
    cases hstray

end Reckoning

end Ssp
