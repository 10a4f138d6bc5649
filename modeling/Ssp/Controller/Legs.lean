import Ssp.Controller.Refine

/-!
# The legs of the calls

As long as nta grants what the code asks for without a check, the legs that live are
those of the dialogs: none is leaked, none is destroyed twice, and each has its other
side (`Controller.tidy_of_reachable`).

Other assertions may fail nevertheless, those about responses to transactions that are
gone, or whose legs are.
-/

namespace Ssp

/-- A fault that has to do with a transaction, not with the legs of a call: a response comes
    for a transaction that is gone or whose leg is gone. -/
def Fault.OfTransaction : Fault → Prop
  | .assertion .inviteResponseNoIncoming | .assertion .inviteResponseNoBLeg
  | .assertion .inviteResponseNoALeg | .assertion .responseNoIncoming
  | .assertion .responseNoLeg => True
  | _ => False

namespace Calls

/-! ## The invariant -/

/-- The leg of a call that its `SipDialogInfo` is kept for: the A leg of an origination call,
    the B leg of a termination call. -/
def infoLeg (s : Calls) (a b : Leg) : Leg := if s.callType a = .termination then b else a

/-- The tables fit the legs. -/
structure Tidy (s : Calls) : Prop where
  legs_nodup : s.legs.Nodup
  live_iff : ∀ l, l ∈ s.legs ↔ ∃ a b, (a, b) ∈ s.dialogs ∧ (l = a ∨ l = b)
  sides : ∀ a b a' b', (a, b) ∈ s.dialogs → (a', b') ∈ s.dialogs → a ≠ b'
  typed : ∀ a b, (a, b) ∈ s.dialogs → s.callType a ≠ .unknown
  info_iff : ∀ l, s.mapDialogInfo l ≠ none ↔ ∃ a b, (a, b) ∈ s.dialogs ∧ l = s.infoLeg a b
  info_leg : ∀ l, ∀ d ∈ s.mapDialogInfo l, d.leg = l

/-- The attempt of a termination call is on the B leg of the call. -/
def OnCall (s : Calls) (orq : Orq) : Prop :=
  orq.address < s.next ∧ ∃ leg ∈ s.outgoingLeg orq, leg.address < s.next ∧
    (leg ∈ s.legs → ∃ a, (a, leg) ∈ s.dialogs ∧ s.callType a = .termination)

/-- What makes `Tidy` an invariant. -/
structure LegInv (s : Calls) : Prop extends Tidy s where
  next_pos : 0 < s.next
  legs_lt : ∀ l ∈ s.legs, 0 < l.address ∧ l.address < s.next
  attempts : ∀ orq, s.mapTerminationAttempts orq ≠ none → s.OnCall orq
  faults : ∀ f ∈ s.faults, f.OfTransaction

section

variable {s s' : Calls}

theorem Tidy.left_live (h : s.Tidy) {a b : Leg} (hab : (a, b) ∈ s.dialogs) : a ∈ s.legs :=
  (h.live_iff a).2 ⟨a, b, hab, .inl rfl⟩

theorem Tidy.right_live (h : s.Tidy) {a b : Leg} (hab : (a, b) ∈ s.dialogs) : b ∈ s.legs :=
  (h.live_iff b).2 ⟨a, b, hab, .inr rfl⟩

/-- A leg that lives is on one side of one pair. -/
theorem Tidy.existsUnique (h : s.Tidy) {l : Leg} (hl : l ∈ s.legs) :
    ∃! p : Leg × Leg, p ∈ s.dialogs ∧ (l = p.1 ∨ l = p.2) := by
  obtain ⟨a, b, hab, hside⟩ := (h.live_iff l).1 hl
  refine ⟨(a, b), ⟨hab, hside⟩, ?_⟩
  rintro ⟨a', b'⟩ ⟨hab', hside'⟩
  rcases hside with rfl | rfl
  · rcases hside' with heq | heq
    · obtain rfl : l = a' := heq
      rw [Bimap.left_unique hab' hab]
    · exact absurd heq (h.sides l b a' b' hab hab')
  · rcases hside' with heq | heq
    · exact absurd heq.symm (h.sides a' b' a l hab' hab)
    · obtain rfl : l = b' := heq
      rw [Bimap.right_unique hab' hab]

theorem LegInv.ne_null (h : s.LegInv) {l : Leg} (hl : l ∈ s.legs) : l ≠ .null := by
  rintro rfl
  exact absurd (h.legs_lt _ hl).1 (lt_irrefl 0)

/-- A handle that is not given out yet is no leg of a call. -/
theorem LegInv.fresh (h : s.LegInv) {l : Leg} (hl : s.next ≤ l.address) : l ∉ s.legs :=
  fun hmem => absurd (h.legs_lt l hmem).2 (not_lt.2 hl)

/-- A leg that lives has its other side. -/
theorem Tidy.getAssociatedDialog (h : s.Tidy) {a b : Leg} (hab : (a, b) ∈ s.dialogs) :
    s.getAssociatedDialog a = some b ∧ s.getAssociatedDialog b = some a := by
  unfold Calls.getAssociatedDialog
  have hleft : s.dialogs.left? b = none :=
    Bimap.left?_eq_none_iff.2 fun y hby => h.sides b y a b hby hab rfl
  rw [Bimap.left?_eq_some_iff.2 hab, hleft, Bimap.right?_eq_some_iff.2 hab]
  exact ⟨rfl, rfl⟩

/-- A leg with a `SipDialogInfo` lives. -/
theorem Tidy.live_of_info (h : s.Tidy) {l : Leg} (hl : l ∈ s.legs ∨ s.mapDialogInfo l ≠ none) :
    l ∈ s.legs := by
  rcases hl with hl | hl
  · exact hl
  · obtain ⟨a, b, hab, rfl⟩ := (h.info_iff l).1 hl
    unfold infoLeg
    split_ifs
    · exact h.right_live hab
    · exact h.left_live hab

/-! ## Steps that leave the legs alone -/

/-- The legs, the dialogs and what is known of them stay as they are. -/
structure SameLegs (s s' : Calls) : Prop where
  next : s.next ≤ s'.next
  legs : s'.legs = s.legs
  dialogs : s'.dialogs = s.dialogs
  callType : s'.callType = s.callType
  info : ∀ l, (s'.mapDialogInfo l).map (·.leg) = (s.mapDialogInfo l).map (·.leg)
  attempts : ∀ orq, s'.mapTerminationAttempts orq ≠ none → s.mapTerminationAttempts orq ≠ none
  outgoing : ∀ orq : Orq, orq.address < s.next → s'.outgoingLeg orq = s.outgoingLeg orq
  faults : ∀ f ∈ s'.faults, f ∈ s.faults ∨ f.OfTransaction

theorem LegInv.of_sameLegs (h : s.LegInv) (hs : SameLegs s s') : s'.LegInv := by
  have hnone : ∀ l, s'.mapDialogInfo l ≠ none ↔ s.mapDialogInfo l ≠ none := by
    intro l
    rw [Ne, Ne, ← Option.map_eq_none_iff (f := (·.leg)), hs.info l, Option.map_eq_none_iff]
  have hinfoLeg : s'.infoLeg = s.infoLeg := by
    funext a b
    rw [infoLeg, infoLeg, hs.callType]
  refine ⟨⟨?_, ?_, ?_, ?_, ?_, ?_⟩, ?_, ?_, ?_, ?_⟩
  · rw [hs.legs]
    exact h.legs_nodup
  · rw [hs.legs, hs.dialogs]
    exact h.live_iff
  · rw [hs.dialogs]
    exact h.sides
  · rw [hs.dialogs, hs.callType]
    exact h.typed
  · intro l
    rw [hnone, hs.dialogs, hinfoLeg]
    exact h.info_iff l
  · intro l d hd
    have hleg := hs.info l
    rw [show s'.mapDialogInfo l = some d from hd] at hleg
    obtain ⟨d', hd', heq⟩ := Option.map_eq_some_iff.1 hleg.symm
    exact Eq.trans heq.symm (h.info_leg l d' hd')
  · exact h.next_pos.trans_le hs.next
  · rw [hs.legs]
    exact fun l hl => ⟨(h.legs_lt l hl).1, (h.legs_lt l hl).2.trans_le hs.next⟩
  · intro orq horq
    obtain ⟨hlt, leg, hleg, hleglt, hcall⟩ := h.attempts orq (hs.attempts orq horq)
    refine ⟨hlt.trans_le hs.next, leg, ?_, hleglt.trans_le hs.next, ?_⟩
    · rw [hs.outgoing orq hlt]
      exact hleg
    · rw [hs.legs, hs.dialogs, hs.callType]
      exact hcall
  · exact fun f hf => (hs.faults f hf).elim (h.faults f) id

/-- Nothing of the legs has to do with the log and with the server transactions. -/
theorem sameLegs_with (s : Calls) {n : ℕ} (hn : s.next ≤ n) (incoming : Irq → Option Incoming)
    (transactions : Bimap Irq Orq) (log : List CallEvent) :
    SameLegs s { s with next := n, incoming := incoming, transactions := transactions, log := log } :=
  ⟨hn, rfl, rfl, rfl, fun _ => rfl, fun _ h => h, fun _ _ => rfl, fun _ hf => .inl hf⟩

/-! ## A call ends -/

/-- The call with the legs `a` and `b` is gone. -/
structure Closed (s s' : Calls) (a b : Leg) : Prop where
  legs_nodup : s'.legs.Nodup
  mem_legs : ∀ l, l ∈ s'.legs ↔ l ∈ s.legs ∧ l ≠ a ∧ l ≠ b
  mem_dialogs : ∀ p, p ∈ s'.dialogs ↔ p ∈ s.dialogs ∧ p ≠ (a, b)
  info : ∀ l, s'.mapDialogInfo l = if l = a ∨ l = b then none else s.mapDialogInfo l
  faults : s'.faults = s.faults

theorem destroyLeg_of_mem {leg : Leg} (hnull : leg ≠ .null) (hleg : leg ∈ s.legs) :
    s.destroyLeg leg = { s with legs := s.legs.erase leg } := by
  rw [destroyLeg, if_neg hnull, if_pos hleg]

/-- `clearDialog` of a leg that has its other side. -/
theorem LegInv.clearDialog_eq (h : s.LegInv) {leg other : Leg} (hleg : leg ∈ s.legs)
    (hother : other ∈ s.legs) (hne : other ≠ leg) (hget : s.getAssociatedDialog leg = some other) :
    s.clearDialog leg =
      { s with
        legs := (s.legs.erase leg).erase other
        dialogs := (s.dialogs.eraseLeft leg).eraseRight leg
        mapDialogInfo := Function.update (Function.update s.mapDialogInfo leg none) other none } := by
  have hlive : other ∈ s.legs.erase leg := (List.mem_erase_of_ne hne).2 hother
  unfold clearDialog
  rw [hget]
  dsimp only
  rw [if_neg (h.ne_null hother), destroyLeg_of_mem (h.ne_null hleg) hleg,
    destroyLeg_of_mem (h.ne_null hother) hlive]
  rfl

theorem LegInv.clearDialog_closed (h : s.LegInv) {leg : Leg} (hleg : leg ∈ s.legs) :
    ∃ a b, (a, b) ∈ s.dialogs ∧ (leg = a ∨ leg = b) ∧ Closed s (s.clearDialog leg) a b := by
  obtain ⟨a, b, hab, hside⟩ := (h.live_iff leg).1 hleg
  refine ⟨a, b, hab, hside, ?_⟩
  have hlegs : ∀ l, l ∈ (s.legs.erase a).erase b ↔ l ∈ s.legs ∧ l ≠ a ∧ l ≠ b := by
    intro l
    rw [(h.legs_nodup.erase a).mem_erase_iff, h.legs_nodup.mem_erase_iff]
    tauto
  have hne : a ≠ b := h.sides a b a b hab hab
  obtain ⟨hgetA, hgetB⟩ := h.getAssociatedDialog hab
  -- No other pair has a side in common with the one that goes.
  have hpair : ∀ p ∈ s.dialogs, p.1 = a ∨ p.2 = b ↔ p = (a, b) := by
    rintro ⟨x, y⟩ hxy
    constructor
    · rintro (rfl | rfl)
      · rw [Bimap.left_unique hxy hab]
      · rw [Bimap.right_unique hxy hab]
    · exact fun heq => .inl (congrArg Prod.fst heq)
  rcases hside with rfl | rfl
  · rw [h.clearDialog_eq hleg (h.right_live hab) hne.symm hgetA]
    refine ⟨(h.legs_nodup.erase _).erase _, hlegs, ?_, ?_, rfl⟩
    · rintro ⟨x, y⟩
      rw [Bimap.mem_eraseRight, Bimap.mem_eraseLeft]
      constructor
      · rintro ⟨⟨hxy, hx⟩, -⟩
        exact ⟨hxy, fun heq => hx (congrArg Prod.fst heq)⟩
      · rintro ⟨hxy, hne'⟩
        exact ⟨⟨hxy, fun hx => hne' ((hpair _ hxy).1 (.inl hx))⟩, (h.sides leg b x y hab hxy).symm⟩
    · intro l
      simp only [Function.update_apply]
      split_ifs <;> tauto
  · rw [h.clearDialog_eq hleg (h.left_live hab) hne hgetB]
    refine ⟨(h.legs_nodup.erase _).erase _, ?_, ?_, ?_, rfl⟩
    · intro l
      rw [List.erase_comm]
      exact hlegs l
    · rintro ⟨x, y⟩
      rw [Bimap.mem_eraseRight, Bimap.mem_eraseLeft]
      constructor
      · rintro ⟨⟨hxy, -⟩, hy⟩
        exact ⟨hxy, fun heq => hy (congrArg Prod.snd heq)⟩
      · rintro ⟨hxy, hne'⟩
        exact ⟨⟨hxy, h.sides x y a leg hxy hab⟩, fun hy => hne' ((hpair _ hxy).1 (.inr hy))⟩
    · intro l
      simp only [Function.update_apply]
      split_ifs <;> tauto

theorem LegInv.clearDialog (h : s.LegInv) {leg : Leg}
    (hleg : leg ∈ s.legs ∨ s.mapDialogInfo leg ≠ none) : (s.clearDialog leg).LegInv := by
  obtain ⟨a, b, hab, -, hc⟩ := h.clearDialog_closed (h.live_of_info hleg)
  -- A leg of a pair that stays is not one of the two that go.
  have hstay : ∀ x y, (x, y) ∈ s.dialogs → (x, y) ≠ (a, b) → x ≠ a ∧ x ≠ b ∧ y ≠ a ∧ y ≠ b := by
    intro x y hxy hne
    refine ⟨?_, h.sides x y a b hxy hab, (h.sides a b x y hab hxy).symm, ?_⟩
    · rintro rfl
      exact hne (by rw [Bimap.left_unique hxy hab])
    · rintro rfl
      exact hne (by rw [Bimap.right_unique hxy hab])
  have hinfoLeg : (s.clearDialog leg).infoLeg = s.infoLeg := by
    funext x y
    rw [infoLeg, infoLeg, clearDialog_callType]
  refine ⟨⟨hc.legs_nodup, ?_, ?_, ?_, ?_, ?_⟩, ?_, ?_, ?_, ?_⟩
  · intro l
    rw [hc.mem_legs, h.live_iff]
    constructor
    · rintro ⟨⟨x, y, hxy, hl⟩, hla, hlb⟩
      refine ⟨x, y, (hc.mem_dialogs _).2 ⟨hxy, fun heq => ?_⟩, hl⟩
      obtain ⟨rfl, rfl⟩ := Prod.mk.inj heq
      exact hl.elim hla hlb
    · rintro ⟨x, y, hxy, hl⟩
      obtain ⟨hxy, hne⟩ := (hc.mem_dialogs _).1 hxy
      obtain ⟨h1, h2, h3, h4⟩ := hstay x y hxy hne
      refine ⟨⟨x, y, hxy, hl⟩, ?_⟩
      rcases hl with rfl | rfl
      · exact ⟨h1, h2⟩
      · exact ⟨h3, h4⟩
  · intro x y x' y' hxy hxy'
    exact h.sides x y x' y' ((hc.mem_dialogs _).1 hxy).1 ((hc.mem_dialogs _).1 hxy').1
  · intro x y hxy
    rw [clearDialog_callType]
    exact h.typed x y ((hc.mem_dialogs _).1 hxy).1
  · intro l
    rw [hc.info, hinfoLeg]
    constructor
    · intro hl
      split_ifs at hl with hgone
      · exact absurd rfl hl
      · obtain ⟨x, y, hxy, rfl⟩ := (h.info_iff l).1 hl
        refine ⟨x, y, (hc.mem_dialogs _).2 ⟨hxy, fun heq => hgone ?_⟩, rfl⟩
        obtain ⟨rfl, rfl⟩ := Prod.mk.inj heq
        unfold infoLeg
        split_ifs
        · exact .inr rfl
        · exact .inl rfl
    · rintro ⟨x, y, hxy, rfl⟩
      obtain ⟨hxy, hne⟩ := (hc.mem_dialogs _).1 hxy
      obtain ⟨h1, h2, h3, h4⟩ := hstay x y hxy hne
      rw [if_neg]
      · exact (h.info_iff _).2 ⟨x, y, hxy, rfl⟩
      · unfold infoLeg
        split_ifs <;> tauto
  · intro l d hd
    rw [hc.info] at hd
    split_ifs at hd
    · cases hd
    · exact h.info_leg l d hd
  · rw [clearDialog_next]
    exact h.next_pos
  · intro l hl
    rw [clearDialog_next]
    exact h.legs_lt l ((hc.mem_legs l).1 hl).1
  · intro orq horq
    rw [clearDialog_mapTerminationAttempts] at horq
    obtain ⟨hlt, l, hl, hllt, hcall⟩ := h.attempts orq horq
    unfold OnCall
    rw [clearDialog_next, outgoingLeg, clearDialog_outgoing, clearDialog_callType]
    refine ⟨hlt, l, hl, hllt, fun hlive => ?_⟩
    obtain ⟨hlive, hla, hlb⟩ := (hc.mem_legs l).1 hlive
    obtain ⟨x, hx, htype⟩ := hcall hlive
    exact ⟨x, (hc.mem_dialogs _).2 ⟨hx, fun heq => hlb (congrArg Prod.snd heq)⟩, htype⟩
  · rw [hc.faults]
    exact h.faults

/-! ## A call begins -/

theorem insertNew_of_none {κ ν : Type} [DecidableEq κ] {m : κ → Option ν} {k : κ} (h : m k = none)
    (v : ν) : insertNew m k v = Function.update m k (some v) := by
  rw [insertNew, h]
  rfl

theorem LegInv.info_of_fresh (h : s.LegInv) {l : Leg} (hl : s.next ≤ l.address) :
    s.mapDialogInfo l = none := by
  by_contra hinfo
  exact h.fresh hl (h.live_of_info (.inr hinfo))

theorem LegInv.attempt_of_fresh (h : s.LegInv) {orq : Orq} (horq : s.next ≤ orq.address) :
    s.mapTerminationAttempts orq = none := by
  by_contra ht
  exact absurd (h.attempts orq ht).1 (not_lt.2 horq)

/-- The attempts of other calls stay on their calls. -/
theorem OnCall.mono {orq : Orq} (h : s.OnCall orq) (hnext : s.next ≤ s'.next)
    (hout : ∀ leg ∈ s.outgoingLeg orq, leg ∈ s'.outgoingLeg orq)
    (hlegs : ∀ l, l.address < s.next → l ∈ s'.legs → l ∈ s.legs)
    (hcalls : ∀ a l, l ∈ s'.legs → (a, l) ∈ s.dialogs → s.callType a = .termination →
      (a, l) ∈ s'.dialogs ∧ s'.callType a = .termination) : s'.OnCall orq := by
  obtain ⟨hlt, leg, hleg, hleglt, hcall⟩ := h
  refine ⟨hlt.trans_le hnext, leg, hout leg hleg, hleglt.trans_le hnext, fun hlive => ?_⟩
  obtain ⟨a, ha, htype⟩ := hcall (hlegs leg hleglt hlive)
  exact ⟨a, hcalls a leg hlive ha htype⟩

/-- A call with the legs `a` and `b` is there. -/
structure Opened (s s' : Calls) (callType : CallType) (a b : Leg) : Prop where
  legs : s'.legs = b :: a :: s.legs
  mem_dialogs : ∀ p, p ∈ s'.dialogs ↔ p = (a, b) ∨ p ∈ s.dialogs
  type : s'.callType = Function.update s.callType a callType
  info : ∃ d : SipDialogInfo, (d.leg = if callType = .termination then b else a) ∧
    s'.mapDialogInfo = Function.update s.mapDialogInfo d.leg (some d)

theorem LegInv.openCall_opened (h : s.LegInv) {callType : CallType} {aLeg bLeg : Leg} {orq : Orq}
    {request : OutgoingRequest} {info : SipDialogInfo} {t n : ℕ}
    (hinfo : info.leg = if callType = .termination then bLeg else aLeg)
    (ha : s.next < aLeg.address) (hb : s.next < bLeg.address) :
    Opened s (s.openCall callType aLeg bLeg orq request info t n) callType aLeg bLeg := by
  have hnull : aLeg ≠ .null := by
    rintro rfl
    exact absurd ha (Nat.not_lt_zero _)
  refine ⟨if_neg hnull, fun p => ?_, rfl, info, hinfo, insertNew_of_none (h.info_of_fresh ?_) info⟩
  · refine Bimap.mem_insert_of_new (fun y hy => ?_) fun x hx => ?_
    · exact h.fresh ha.le (h.left_live hy)
    · exact h.fresh hb.le (h.right_live hx)
  · rw [hinfo]
    split_ifs
    · exact hb.le
    · exact ha.le

theorem Tidy.of_opened (h : s.Tidy) {callType : CallType} {a b : Leg} (ho : Opened s s' callType a b)
    (htype : callType ≠ .unknown) (ha : a ∉ s.legs) (hb : b ∉ s.legs) (hne : a ≠ b) : s'.Tidy := by
  obtain ⟨d, hd, hinfo⟩ := ho.info
  have hold : ∀ {x y}, (x, y) ∈ s.dialogs → x ≠ a ∧ x ≠ b ∧ y ≠ a ∧ y ≠ b := by
    intro x y hxy
    have hx := h.left_live hxy
    have hy := h.right_live hxy
    refine ⟨?_, ?_, ?_, ?_⟩ <;> rintro rfl <;> contradiction
  have hinfoOld : ∀ {x y}, (x, y) ∈ s.dialogs → s'.infoLeg x y = s.infoLeg x y := by
    intro x y hxy
    rw [infoLeg, infoLeg, ho.type, Function.update_of_ne (hold hxy).1]
  have hinfoNew : s'.infoLeg a b = d.leg := by
    rw [infoLeg, ho.type, Function.update_self, hd]
  have hdFresh : s.mapDialogInfo d.leg = none := by
    by_contra hsome
    have hlive := h.live_of_info (.inr hsome)
    rw [hd] at hlive
    split_ifs at hlive
    · exact hb hlive
    · exact ha hlive
  refine ⟨?_, ?_, ?_, ?_, ?_, ?_⟩
  · rw [ho.legs]
    refine List.nodup_cons.2 ⟨?_, List.nodup_cons.2 ⟨ha, h.legs_nodup⟩⟩
    rw [List.mem_cons, not_or]
    exact ⟨hne.symm, hb⟩
  · intro l
    rw [ho.legs, List.mem_cons, List.mem_cons, h.live_iff]
    constructor
    · rintro (rfl | rfl | ⟨x, y, hxy, hl⟩)
      · exact ⟨a, l, (ho.mem_dialogs _).2 (.inl rfl), .inr rfl⟩
      · exact ⟨l, b, (ho.mem_dialogs _).2 (.inl rfl), .inl rfl⟩
      · exact ⟨x, y, (ho.mem_dialogs _).2 (.inr hxy), hl⟩
    · rintro ⟨x, y, hxy, hl⟩
      rcases (ho.mem_dialogs _).1 hxy with heq | hxy
      · obtain ⟨rfl, rfl⟩ := Prod.mk.inj heq
        exact hl.elim (fun hl => .inr (.inl hl)) .inl
      · exact .inr (.inr ⟨x, y, hxy, hl⟩)
  · intro x y x' y' hxy hxy'
    rcases (ho.mem_dialogs _).1 hxy with heq | hxy <;>
      rcases (ho.mem_dialogs _).1 hxy' with heq' | hxy'
    · obtain ⟨rfl, rfl⟩ := Prod.mk.inj heq
      obtain ⟨-, rfl⟩ := Prod.mk.inj heq'
      exact hne
    · obtain ⟨rfl, rfl⟩ := Prod.mk.inj heq
      exact (hold hxy').2.2.1.symm
    · obtain ⟨rfl, rfl⟩ := Prod.mk.inj heq'
      exact (hold hxy).2.1
    · exact h.sides x y x' y' hxy hxy'
  · intro x y hxy
    rw [ho.type]
    rcases (ho.mem_dialogs _).1 hxy with heq | hxy
    · obtain ⟨rfl, rfl⟩ := Prod.mk.inj heq
      rw [Function.update_self]
      exact htype
    · rw [Function.update_of_ne (hold hxy).1]
      exact h.typed x y hxy
  · intro l
    rw [hinfo]
    constructor
    · intro hl
      by_cases heq : l = d.leg
      · exact ⟨a, b, (ho.mem_dialogs _).2 (.inl rfl), by rw [hinfoNew, heq]⟩
      · rw [Function.update_of_ne heq] at hl
        obtain ⟨x, y, hxy, rfl⟩ := (h.info_iff l).1 hl
        exact ⟨x, y, (ho.mem_dialogs _).2 (.inr hxy), (hinfoOld hxy).symm⟩
    · rintro ⟨x, y, hxy, rfl⟩
      rcases (ho.mem_dialogs _).1 hxy with heq | hxy
      · obtain ⟨rfl, rfl⟩ := Prod.mk.inj heq
        rw [hinfoNew, Function.update_self]
        exact Option.some_ne_none _
      · have hsome := (h.info_iff _).2 ⟨x, y, hxy, rfl⟩
        rw [hinfoOld hxy, Function.update_of_ne]
        · exact hsome
        · intro heq
          rw [heq] at hsome
          exact hsome hdFresh
  · intro l d' hd'
    rw [hinfo] at hd'
    by_cases heq : l = d.leg
    · rw [heq, Function.update_self] at hd'
      obtain rfl : d = d' := Option.some.inj hd'
      exact heq.symm
    · rw [Function.update_of_ne heq] at hd'
      exact h.info_leg l d' hd'

theorem LegInv.openCall (h : s.LegInv) {callType : CallType} {aLeg bLeg : Leg} {orq : Orq}
    {request : OutgoingRequest} {info : SipDialogInfo} {t n : ℕ}
    (hinfo : info.leg = if callType = .termination then bLeg else aLeg)
    (htype : callType ≠ .unknown) (ha : s.next < aLeg.address) (hab : aLeg.address < bLeg.address)
    (horq : bLeg.address < orq.address) (hn : orq.address < n) :
    (s.openCall callType aLeg bLeg orq request info t n).LegInv := by
  have ho := @openCall_opened s h callType aLeg bLeg orq request info t n hinfo ha (ha.trans hab)
  have hne : aLeg ≠ bLeg := by
    rintro rfl
    exact absurd hab (lt_irrefl _)
  have haFresh := h.fresh ha.le
  refine ⟨h.of_opened ho htype haFresh (h.fresh (ha.trans hab).le) hne, Nat.zero_lt_of_lt hn, ?_, ?_,
    h.faults⟩
  · intro l hl
    rw [ho.legs, List.mem_cons, List.mem_cons] at hl
    change 0 < l.address ∧ l.address < n
    rcases hl with rfl | rfl | hl
    · omega
    · omega
    · have := h.legs_lt l hl
      omega
  · intro o hatt
    by_cases heq : o = orq
    · -- The attempt that comes with the call.
      subst heq
      refine ⟨hn, bLeg, ?_, horq.trans hn, fun _ => ⟨aLeg, (ho.mem_dialogs _).2 (.inl rfl), ?_⟩⟩
      · change Option.map _ (Function.update s.outgoing o _ o) = _
        rw [Function.update_self]
        rfl
      · rw [ho.type, Function.update_self]
        by_contra hcall
        rw [Calls.openCall, if_neg hcall] at hatt
        exact hatt (h.attempt_of_fresh (by omega))
    · have hatt' : s.mapTerminationAttempts o ≠ none := by
        rw [Calls.openCall] at hatt
        dsimp only at hatt
        split_ifs at hatt
        · rwa [insertNew_of_none (h.attempt_of_fresh (by omega)), Function.update_of_ne heq] at hatt
        · exact hatt
      refine (h.attempts o hatt').mono (by change s.next ≤ n; omega) ?_ ?_ ?_
      · intro leg hleg
        change Option.map _ (Function.update s.outgoing orq _ o) = _
        rw [Function.update_of_ne heq]
        exact hleg
      · intro l hlt hl
        rw [ho.legs, List.mem_cons, List.mem_cons] at hl
        rcases hl with rfl | rfl | hl
        · omega
        · omega
        · exact hl
      · intro a l _ hal htype
        refine ⟨(ho.mem_dialogs _).2 (.inr hal), ?_⟩
        rw [ho.type, Function.update_of_ne]
        · exact htype
        · rintro rfl
          exact haFresh (h.left_live hal)

/-! ## Another attempt -/

/-- The call with the legs `a` and `b` goes on with the legs `a` and `b'`. -/
structure Moved (s s' : Calls) (a b b' : Leg) : Prop where
  legs_nodup : s'.legs.Nodup
  mem_legs : ∀ l, l ∈ s'.legs ↔ l = b' ∨ l ∈ s.legs ∧ l ≠ b
  mem_dialogs : ∀ p, p ∈ s'.dialogs ↔ p = (a, b') ∨ p ∈ s.dialogs ∧ p ≠ (a, b)
  callType : s'.callType = s.callType
  info : ∃ d : SipDialogInfo, d.leg = b' ∧
    s'.mapDialogInfo = Function.update (Function.update s.mapDialogInfo b' (some d)) b none
  faults : s'.faults = s.faults

/-- `updateDialog` of a leg that has its other side and its `SipDialogInfo`. -/
theorem updateDialog_eq {a b b' : Leg} {d : SipDialogInfo} (hget : s.getAssociatedDialog b = some a)
    (hlive : b ∈ s.legs) (hnull : b ≠ .null) (hnull' : b' ≠ .null) (hinfo : s.mapDialogInfo b = some d) :
    s.updateDialog b b' =
      { s with
        legs := s.legs.erase b
        dialogs := (s.dialogs.eraseRight b).insert a b'
        mapDialogInfo := Function.update (insertNew s.mapDialogInfo b' { d with leg := b' }) b none } := by
  unfold updateDialog moveDialog
  rw [if_neg (not_or.2 ⟨hnull, hnull'⟩), hget]
  dsimp only
  rw [destroyLeg_of_mem hnull]
  · simp only [addDialogs, hinfo]
    rfl
  · exact hlive

/-- Another attempt takes the place of the one on the leg `b` of a call. -/
theorem replaceAttempt_moved {a b b' : Leg} {d : SipDialogInfo} (hnodup : s.legs.Nodup)
    (hab : (a, b) ∈ s.dialogs) (hget : s.getAssociatedDialog b = some a) (hlive : b ∈ s.legs)
    (hnull : b ≠ .null) (hinfo : s.mapDialogInfo b = some d) (hnull' : b' ≠ .null) (hfresh : b' ∉ s.legs)
    (hdialogs : ∀ x, (x, b') ∉ s.dialogs) (hinfo' : s.mapDialogInfo b' = none) (irq : Irq) (orq orqNew : Orq)
    (request : OutgoingRequest) (t n : ℕ) :
    Moved s (s.replaceAttempt irq orq orqNew b b' request t n) a b b' ∧
      (s.replaceAttempt irq orq orqNew b b' request t n).mapDialogInfo =
        Function.update (Function.update s.mapDialogInfo b' (some { d with leg := b' })) b none := by
  have hne : b ≠ b' := by
    rintro rfl
    exact hfresh hlive
  have hinfoEq : Function.update (insertNew s.mapDialogInfo b' { d with leg := b' }) b none =
      Function.update (Function.update s.mapDialogInfo b' (some { d with leg := b' })) b none :=
    congrArg (Function.update · b none) (insertNew_of_none hinfo' _)
  have hcons : (b' :: s.legs).Nodup := List.nodup_cons.2 ⟨hfresh, hnodup⟩
  unfold replaceAttempt
  dsimp only
  rw [updateDialog_eq (a := a) (d := d)]
  · refine ⟨⟨hcons.erase b, ?_, ?_, rfl, ⟨{ d with leg := b' }, rfl, hinfoEq⟩, rfl⟩, hinfoEq⟩
    · intro l
      refine (hcons.mem_erase_iff).trans ?_
      rw [List.mem_cons]
      constructor
      · rintro ⟨hl, rfl | hmem⟩
        · exact .inl rfl
        · exact .inr ⟨hmem, hl⟩
      · rintro (rfl | ⟨hmem, hl⟩)
        · exact ⟨hne.symm, .inl rfl⟩
        · exact ⟨hl, .inr hmem⟩
    · intro p
      refine (Bimap.mem_insert_of_new ?_ ?_).trans ?_
      · intro y hy
        obtain ⟨hy, hyne⟩ := Bimap.mem_eraseRight.1 hy
        exact hyne (Bimap.left_unique hy hab)
      · intro x hx
        exact hdialogs x (Bimap.mem_eraseRight.1 hx).1
      · rw [Bimap.mem_eraseRight]
        refine or_congr_right (and_congr_right fun hp => not_congr ⟨fun heq => ?_, fun heq => by rw [heq]⟩)
        have hp' : (p.1, b) ∈ s.dialogs := heq ▸ hp
        exact Prod.ext (Bimap.right_unique hp' hab) heq
  · exact hget
  · exact List.mem_cons_of_mem _ hlive
  · exact hnull
  · exact hnull'
  · exact hinfo

theorem LegInv.replaceAttempt_moved (h : s.LegInv) {irq : Irq} {orq orqNew : Orq} {bLeg bLegNew : Leg}
    {request : OutgoingRequest} {t n : ℕ} (hleg : s.legFromOutgoing orq = bLeg) (hlive : bLeg ∈ s.legs)
    (ht : s.mapTerminationAttempts orq ≠ none) (hb : s.next ≤ bLegNew.address) :
    ∃ a, (a, bLeg) ∈ s.dialogs ∧ s.callType a = .termination ∧
      Moved s (s.replaceAttempt irq orq orqNew bLeg bLegNew request t n) a bLeg bLegNew := by
  -- The attempt is on the B leg of a termination call.
  obtain ⟨-, leg, hon, -, hcall⟩ := h.attempts orq ht
  have hlegEq : leg = bLeg := by
    have hspec := (Controller.legFromOutgoing_spec (hleg ▸ h.ne_null hlive)).1
    rw [hleg, show s.outgoingLeg orq = some leg from hon] at hspec
    exact Option.some.inj hspec
  subst hlegEq
  obtain ⟨a, hab, htype⟩ := hcall hlive
  have hinfo : s.mapDialogInfo leg ≠ none := by
    refine (h.info_iff leg).2 ⟨a, leg, hab, ?_⟩
    rw [infoLeg, if_pos htype]
  obtain ⟨d, hd⟩ := Option.ne_none_iff_exists'.1 hinfo
  have hfresh := h.fresh hb
  have hnull : bLegNew ≠ .null := by
    rintro rfl
    exact absurd hb (not_le.2 h.next_pos)
  exact ⟨a, hab, htype, (Calls.replaceAttempt_moved h.legs_nodup hab (h.getAssociatedDialog hab).2 hlive
    (h.ne_null hlive) hd hnull hfresh (fun x hx => hfresh (h.right_live hx)) (h.info_of_fresh hb) irq orq
    orqNew request t n).1⟩

theorem Tidy.of_moved (h : s.Tidy) {a b b' : Leg} (hm : Moved s s' a b b') (hab : (a, b) ∈ s.dialogs)
    (htype : s.callType a = .termination) (hb' : b' ∉ s.legs) : s'.Tidy := by
  obtain ⟨d, hd, hinfo⟩ := hm.info
  have hinfoLeg : s'.infoLeg = s.infoLeg := by
    funext x y
    rw [infoLeg, infoLeg, hm.callType]
  have hinfoLegA : ∀ y, s.infoLeg a y = y := fun y => if_pos htype
  have hne : b ≠ b' := by
    rintro rfl
    exact hb' (h.right_live hab)
  -- The legs of the other calls.
  have hold : ∀ {x y}, (x, y) ∈ s.dialogs → (x, y) ≠ (a, b) → x ≠ b ∧ x ≠ b' ∧ y ≠ b ∧ y ≠ b' := by
    intro x y hxy hxyne
    have hx := h.left_live hxy
    have hy := h.right_live hxy
    refine ⟨h.sides x y a b hxy hab, ?_, ?_, ?_⟩
    · rintro rfl
      exact hb' hx
    · rintro rfl
      exact hxyne (by rw [Bimap.right_unique hxy hab])
    · rintro rfl
      exact hb' hy
  refine ⟨hm.legs_nodup, ?_, ?_, ?_, ?_, ?_⟩
  · intro l
    rw [hm.mem_legs, h.live_iff]
    constructor
    · rintro (rfl | ⟨⟨x, y, hxy, hl⟩, hlb⟩)
      · exact ⟨a, l, (hm.mem_dialogs _).2 (.inl rfl), .inr rfl⟩
      · by_cases heq : (x, y) = (a, b)
        · obtain ⟨rfl, rfl⟩ := Prod.mk.inj heq
          exact ⟨x, b', (hm.mem_dialogs _).2 (.inl rfl), .inl (hl.resolve_right hlb)⟩
        · exact ⟨x, y, (hm.mem_dialogs _).2 (.inr ⟨hxy, heq⟩), hl⟩
    · rintro ⟨x, y, hxy, hl⟩
      rcases (hm.mem_dialogs _).1 hxy with heq | ⟨hxy, hxyne⟩
      · obtain ⟨rfl, rfl⟩ := Prod.mk.inj heq
        rcases hl with rfl | rfl
        · exact .inr ⟨⟨l, b, hab, .inl rfl⟩, h.sides l b l b hab hab⟩
        · exact .inl rfl
      · obtain ⟨h1, -, h3, -⟩ := hold hxy hxyne
        refine .inr ⟨⟨x, y, hxy, hl⟩, ?_⟩
        rcases hl with rfl | rfl
        · exact h1
        · exact h3
  · intro x y x' y' hxy hxy'
    rcases (hm.mem_dialogs _).1 hxy with heq | ⟨hxy, hxyne⟩ <;>
      rcases (hm.mem_dialogs _).1 hxy' with heq' | ⟨hxy', hxyne'⟩
    · obtain ⟨rfl, rfl⟩ := Prod.mk.inj heq
      obtain ⟨-, rfl⟩ := Prod.mk.inj heq'
      rintro rfl
      exact hb' (h.left_live hab)
    · obtain ⟨rfl, rfl⟩ := Prod.mk.inj heq
      exact h.sides x b x' y' hab hxy'
    · obtain ⟨rfl, rfl⟩ := Prod.mk.inj heq'
      exact (hold hxy hxyne).2.1
    · exact h.sides x y x' y' hxy hxy'
  · intro x y hxy
    rw [hm.callType]
    rcases (hm.mem_dialogs _).1 hxy with heq | ⟨hxy, -⟩
    · obtain ⟨rfl, rfl⟩ := Prod.mk.inj heq
      exact h.typed x b hab
    · exact h.typed x y hxy
  · intro l
    rw [hinfo, hinfoLeg]
    constructor
    · intro hl
      by_cases hlb : l = b
      · rw [hlb, Function.update_self] at hl
        exact absurd rfl hl
      rw [Function.update_of_ne hlb] at hl
      by_cases hlb' : l = b'
      · exact ⟨a, b', (hm.mem_dialogs _).2 (.inl rfl), by rw [hinfoLegA, hlb']⟩
      rw [Function.update_of_ne hlb'] at hl
      obtain ⟨x, y, hxy, rfl⟩ := (h.info_iff l).1 hl
      refine ⟨x, y, (hm.mem_dialogs _).2 (.inr ⟨hxy, fun heq => hlb ?_⟩), rfl⟩
      obtain ⟨rfl, rfl⟩ := Prod.mk.inj heq
      exact hinfoLegA y
    · rintro ⟨x, y, hxy, rfl⟩
      rcases (hm.mem_dialogs _).1 hxy with heq | ⟨hxy, hxyne⟩
      · obtain ⟨rfl, rfl⟩ := Prod.mk.inj heq
        rw [hinfoLegA, Function.update_of_ne hne.symm, Function.update_self]
        exact Option.some_ne_none _
      · obtain ⟨h1, h2, h3, h4⟩ := hold hxy hxyne
        have hsome := (h.info_iff _).2 ⟨x, y, hxy, rfl⟩
        rw [Function.update_of_ne, Function.update_of_ne]
        · exact hsome
        · unfold infoLeg
          split_ifs <;> assumption
        · unfold infoLeg
          split_ifs <;> assumption
  · intro l d' hd'
    rw [hinfo] at hd'
    by_cases hlb : l = b
    · rw [hlb, Function.update_self] at hd'
      cases hd'
    rw [Function.update_of_ne hlb] at hd'
    by_cases hlb' : l = b'
    · rw [hlb', Function.update_self] at hd'
      obtain rfl : d = d' := Option.some.inj hd'
      rw [hd, hlb']
    · rw [Function.update_of_ne hlb'] at hd'
      exact h.info_leg l d' hd'

theorem LegInv.replaceAttempt (h : s.LegInv) {irq : Irq} {orq orqNew : Orq} {bLeg bLegNew : Leg}
    {request : OutgoingRequest} {t n : ℕ} (hleg : s.legFromOutgoing orq = bLeg) (hlive : bLeg ∈ s.legs)
    (ht : s.mapTerminationAttempts orq ≠ none) (hb : s.next ≤ bLegNew.address)
    (horq : bLegNew.address < orqNew.address) (hn : orqNew.address < n) :
    (s.replaceAttempt irq orq orqNew bLeg bLegNew request t n).LegInv := by
  obtain ⟨a, hab, htype, hm⟩ := @replaceAttempt_moved s h irq orq orqNew bLeg bLegNew request t n
    hleg hlive ht hb
  refine ⟨h.of_moved hm hab htype (h.fresh hb), ?_, ?_, ?_, ?_⟩
  · rw [replaceAttempt_next]
    omega
  · intro l hl
    rw [replaceAttempt_next]
    have hpos := h.next_pos
    rcases (hm.mem_legs l).1 hl with rfl | ⟨hl, -⟩
    · omega
    · have := h.legs_lt l hl
      omega
  · intro o ho
    have hfresh := h.attempt_of_fresh (show s.next ≤ orqNew.address by omega)
    rw [replaceAttempt_mapTerminationAttempts] at ho
    by_cases heq : o = orqNew
    · subst heq
      refine ⟨by rwa [replaceAttempt_next], bLegNew, ?_, ?_, fun _ => ⟨a, ?_, ?_⟩⟩
      · rw [outgoingLeg_replaceAttempt, if_pos rfl]
        rfl
      · rw [replaceAttempt_next]
        omega
      · exact (hm.mem_dialogs _).2 (.inl rfl)
      · rw [hm.callType]
        exact htype
    · have ho' : s.mapTerminationAttempts o ≠ none := by
        rw [insertNew_of_none, Function.update_of_ne heq] at ho
        · intro hnone
          refine ho ?_
          rw [Function.update_apply, hnone, ite_self]
        · rw [Function.update_apply, hfresh, ite_self]
      refine (h.attempts o ho').mono ?_ ?_ ?_ ?_
      · rw [replaceAttempt_next]
        omega
      · intro leg hon
        rw [outgoingLeg_replaceAttempt, if_neg heq]
        exact hon
      · intro l hlt hl
        rcases (hm.mem_legs l).1 hl with rfl | ⟨hl, -⟩
        · omega
        · exact hl
      · intro x l hl hxl htype
        refine ⟨(hm.mem_dialogs _).2 (.inr ⟨hxl, fun heq => ?_⟩), by rwa [hm.callType]⟩
        obtain ⟨-, rfl⟩ := Prod.mk.inj heq
        rcases (hm.mem_legs l).1 hl with rfl | ⟨-, hne⟩
        · exact h.fresh hb hlive
        · exact hne rfl
  · rw [hm.faults]
    exact h.faults

/-! ## Every step -/

theorem LegInv.assertion (h : s.LegInv) {a : Assertion} (hv : s.Violated a) :
    (Fault.assertion a).OfTransaction := by
  have hother : ∀ leg, s.getAssociatedDialog leg ≠ some .null := by
    intro leg hleg
    unfold Calls.getAssociatedDialog at hleg
    cases hl : s.dialogs.left? leg with
    | some other =>
      rw [hl] at hleg
      obtain rfl : other = .null := Option.some.inj hleg
      exact h.ne_null (h.right_live (Bimap.left?_eq_some_iff.1 hl)) rfl
    | none =>
      rw [hl] at hleg
      exact h.ne_null (h.left_live (Bimap.right?_eq_some_iff.1 hleg)) rfl
  cases a with
  | requestNoOther =>
    obtain ⟨leg, hleg⟩ := hv
    exact absurd hleg (hother leg)
  | sessionTimerNoOther =>
    obtain ⟨leg, hleg⟩ := hv
    exact absurd hleg (hother leg)
  | inviteResponseNoCdr | clearDialogNoOther | updateDialogNull | updateDialogNoInfo
  | failureCountStatus => exact hv.elim
  | inviteResponseNoIncoming | inviteResponseNoBLeg | inviteResponseNoALeg | responseNoIncoming
  | responseNoLeg => trivial

/-- **Every step keeps the legs tidy**, if nta grants what is asked for. -/
theorem LegInv.callStep {granted calm : Prop} (hgranted : granted) (h : s.LegInv)
    (hstep : CallStep granted calm s s') : s'.LegInv := by
  cases hstep with
  | sent leg method => exact h.of_sameLegs (s.sameLegs_with le_rfl _ _ _)
  | assertion a hv =>
    refine h.of_sameLegs ⟨le_rfl, rfl, rfl, rfl, fun _ => rfl, fun _ h => h, fun _ _ => rfl, ?_⟩
    intro f hf
    rcases List.mem_cons.1 hf with rfl | hf
    · exact .inr (h.assertion hv)
    · exact .inl hf
  | endIterator leg hleg hget =>
    obtain ⟨a, b, hab, hside⟩ := (h.live_iff leg).1 (h.live_of_info hleg)
    obtain ⟨hgetA, hgetB⟩ := h.getAssociatedDialog hab
    rcases hside with rfl | rfl
    · simp [hgetA] at hget
    · simp [hgetB] at hget
  | receive leg => exact h.of_sameLegs (s.sameLegs_with (Nat.le_succ _) _ _ _)
  | advance n hn => exact h.of_sameLegs (s.sameLegs_with hn _ _ _)
  | refuse i status n hn hstatus => exact h.of_sameLegs (s.sameLegs_with hn.le _ _ _)
  | openCall callType aLeg bLeg orq request info t n hinfo htype ha hnull hb horq hn =>
    rcases ha with ha | ⟨ha, hab⟩
    · exact absurd hgranted (hnull ha).2
    · exact h.openCall hinfo htype.1 ha hab horq hn
  | forward leg other orq request n hleg hother hnull horq hnone hn =>
    refine h.of_sameLegs ⟨hn.le, rfl, rfl, rfl, fun _ => rfl, fun _ h => h, ?_, fun _ hf => .inl hf⟩
    intro o ho
    rcases horq with rfl | ⟨hlt, -⟩
    · exact absurd hgranted (hnone rfl)
    · have hne : o ≠ orq := by
        rintro rfl
        omega
      unfold Calls.forward outgoingLeg
      dsimp only
      split_ifs
      · rfl
      · rw [Function.update_of_ne hne]
  | updateDialogInfo leg f hf =>
    refine h.of_sameLegs ⟨le_rfl, rfl, rfl, rfl, ?_, fun _ h => h, fun _ _ => rfl, fun _ hf => .inl hf⟩
    intro l
    change (Function.update s.mapDialogInfo leg _ l).map _ = _
    by_cases heq : l = leg
    · rw [heq, Function.update_self, Option.map_map]
      exact congrArg (Option.map · _) (funext fun d => (hf d).1)
    · rw [Function.update_of_ne heq]
  | eraseAttempt orq =>
    refine h.of_sameLegs ⟨le_rfl, rfl, rfl, rfl, fun _ => rfl, ?_, fun _ _ => rfl, fun _ hf => .inl hf⟩
    intro o ho hnone
    refine ho ?_
    change Function.update s.mapTerminationAttempts orq none o = none
    rw [Function.update_apply, hnone, ite_self]
  | relay irq orq reply hr hstatus => exact h.of_sameLegs (s.sameLegs_with le_rfl _ _ _)
  | settle irq orq reply acks hr hstatus =>
    exact h.of_sameLegs ⟨le_rfl, rfl, rfl, rfl, fun _ => rfl, fun _ h => h,
      fun o _ => outgoingLeg_clearTransaction _ orq o, fun _ hf => .inl hf⟩
  | cancel irq orq hpair hleg =>
    refine h.of_sameLegs ⟨le_rfl, rfl, rfl, rfl, fun _ => rfl, fun _ h => h, fun o _ => ?_,
      fun _ hf => .inl hf⟩
    rw [outgoingLeg_clearTransaction, outgoingLeg_destroyOutgoing]
    rfl
  | cancelLate irq hbound hgone => exact h.of_sameLegs (s.sameLegs_with le_rfl _ _ _)
  | clearDialog leg hleg hcalm => exact h.clearDialog hleg
  | replaceAttempt irq orq orqNew bLeg bLegNew request t n hr hleg hlive hinvite ht hcalm hb horq hn =>
    exact h.replaceAttempt hleg hlive ht hb horq hn

theorem LegInv.callSteps {granted calm : Prop} (hgranted : granted) (h : s.LegInv)
    (hsteps : CallSteps granted calm s s') : s'.LegInv := by
  induction hsteps with
  | refl => exact h
  | tail _ hstep ih => exact ih.callStep hgranted hstep

theorem legInv_empty : LegInv {} := by
  refine ⟨⟨List.nodup_nil, fun l => ?_, ?_, ?_, fun l => ?_, ?_⟩, one_pos, ?_, ?_, ?_⟩
  · exact ⟨fun h => absurd h List.not_mem_nil, fun ⟨_, _, h, _⟩ => absurd h (Bimap.not_mem_empty _)⟩
  · exact fun _ _ _ _ h => absurd h (Bimap.not_mem_empty _)
  · exact fun _ _ h => absurd h (Bimap.not_mem_empty _)
  · exact ⟨fun h => absurd rfl h, fun ⟨_, _, h, _⟩ => absurd h (Bimap.not_mem_empty _)⟩
  · exact fun _ _ h => by cases h
  · exact fun _ h => absurd h List.not_mem_nil
  · exact fun _ h => absurd rfl h
  · exact fun _ h => absurd h List.not_mem_nil

end

end Calls

/-! ## All runs -/

namespace Controller

/-- The runs in which nta grants what the code asks for without a check. -/
def grantedMachine : Machine Controller ControllerEvent := machine.restrict Provided

theorem legInv_next {c : Controller} (h : c.calls.LegInv) {e : ControllerEvent} (he : c.Possible e)
    (hgranted : c.Provided e) : (c.next e).calls.LegInv :=
  h.callSteps hgranted (callSteps_next h.next_pos he)

theorem legInv_of_reachable {c : Controller} (hc : grantedMachine.Reachable c) : c.calls.LegInv := by
  refine hc.invariant (I := fun c => c.calls.LegInv) ?_ ?_
  · intro c hc
    rw [hc.calls]
    exact Calls.legInv_empty
  · rintro c e h ⟨⟨he, -⟩, hgranted⟩
    exact legInv_next h he hgranted

/-- **The tables fit the legs in every run.** No leg is leaked, each is on one side of one pair,
    and whatever happens next, no leg is destroyed twice, `getAssociatedDialog` finds the other
    side, and the assertions about legs hold. -/
theorem tidy_of_reachable {c : Controller} (hc : grantedMachine.Reachable c) :
    c.calls.Tidy ∧
      (∀ l ∈ c.calls.legs, ∃! p : Leg × Leg, p ∈ c.calls.dialogs ∧ (l = p.1 ∨ l = p.2)) ∧
      ∀ e, c.Possible e → c.Provided e →
        (c.next e).calls.Tidy ∧ ∀ f ∈ (c.next e).calls.faults, f.OfTransaction := by
  have h := legInv_of_reachable hc
  refine ⟨h.toTidy, fun l hl => h.existsUnique hl, fun e he hgranted => ?_⟩
  have h' := legInv_next h he hgranted
  exact ⟨h'.toTidy, h'.faults⟩

theorem exampleCall_granted : grantedMachine.Reachable exampleCall :=
  .step (m := grantedMachine) (.init exampleStart_initial) ⟨exampleInviteEvent_enabled, fun _ => rfl⟩

theorem tidy_exampleCall : exampleCall.calls.Tidy ∧
    ∀ f ∈ (exampleCall.next (.requestInsideDialog ⟨2⟩ { method := .bye } {})).calls.faults,
      f.OfTransaction := by
  obtain ⟨htidy, -, hnext⟩ := tidy_of_reachable exampleCall_granted
  have hlive : (⟨2⟩ : Leg) ∈ exampleCall.calls.legs := by decide
  exact ⟨htidy, (hnext (.requestInsideDialog ⟨2⟩ { method := .bye } {}) hlive fun h => absurd rfl h.1).2⟩

end Controller

end Ssp
