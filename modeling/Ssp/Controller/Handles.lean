import Ssp.Controller.Turns
import Ssp.Lib.Linear

/-!
# The handles of the transactions

The controller keeps the handles of two transactions as a pair in `m_transactions`, uses them
when it answers, and gives them back to nta with `nta_incoming_destroy` and
`nta_outgoing_destroy`. `handleOps` lists what the handler of an event does with handles, as the
source has it.

* `givesBack_next`: of the transactions that are there, a handler destroys what it lists.
* `linear_iff`: in a run, the handles are used linearly exactly as long as no CANCEL finds its
  transaction and the A leg. Where one does, the client transaction is destroyed by
  `processAckOrCancel` and once more by `clearTransaction`.
-/

namespace Ssp

/-- A server or a client transaction. -/
inductive Transaction
  | incoming (irq : Irq)
  | outgoing (orq : Orq)
  deriving DecidableEq

/-- The address of a transaction. -/
def Transaction.address : Transaction → ℕ
  | .incoming irq => irq.address
  | .outgoing orq => orq.address

namespace Calls

/-- The transaction is in `m_transactions`; `NULL` is none. -/
def Holds (s : Calls) : Transaction → Prop
  | .incoming irq => ∃ orq, (irq, orq) ∈ s.transactions
  | .outgoing orq => orq ≠ .null ∧ ∃ irq, (irq, orq) ∈ s.transactions

section

variable {s s' : Calls} {irq : Irq} {orq : Orq}

/-- The pair of `orq` goes. -/
theorem holds_eraseRight (hpair : (irq, orq) ∈ s.transactions) (horq : orq ≠ .null)
    (hs' : s'.transactions = s.transactions.eraseRight orq) (t : Transaction) :
    s'.Holds t ↔ s.Holds t ∧ ¬(t = .incoming irq ∨ t = .outgoing orq) := by
  cases t with
  | incoming irq' =>
    simp only [Holds, hs', Bimap.mem_eraseRight, Transaction.incoming.injEq, reduceCtorEq, or_false]
    constructor
    · rintro ⟨orq', hmem, hne⟩
      refine ⟨⟨orq', hmem⟩, ?_⟩
      rintro rfl
      exact hne (Bimap.left_unique hmem hpair)
    · rintro ⟨⟨orq', hmem⟩, hne⟩
      refine ⟨orq', hmem, ?_⟩
      rintro rfl
      exact hne (Bimap.right_unique hmem hpair)
  | outgoing orq' =>
    simp only [Holds, hs', Bimap.mem_eraseRight, Transaction.outgoing.injEq, reduceCtorEq, false_or, exists_and_right,
      and_assoc]

/-- The pair of `irq` and `orq` comes in, or it does not. -/
theorem holds_insert (hs' : s'.transactions = s.transactions.insert irq orq) (t : Transaction) :
    s'.Holds t ↔ s.Holds t ∨ s'.Holds t ∧ (t = .incoming irq ∨ t = .outgoing orq) := by
  refine ⟨fun h => ?_, fun h => h.elim (fun h => ?_) And.left⟩
  · cases t with
    | incoming irq' =>
      obtain ⟨orq', hmem⟩ := h
      rcases Bimap.mem_of_mem_insert (hs' ▸ hmem) with heq | hold
      · exact .inr ⟨⟨orq', hmem⟩, .inl (congrArg (Transaction.incoming ·.1) heq)⟩
      · exact .inl ⟨orq', hold⟩
    | outgoing orq' =>
      obtain ⟨hnull, irq', hmem⟩ := h
      rcases Bimap.mem_of_mem_insert (hs' ▸ hmem) with heq | hold
      · exact .inr ⟨⟨hnull, irq', hmem⟩, .inr (congrArg (Transaction.outgoing ·.2) heq)⟩
      · exact .inl ⟨hnull, irq', hold⟩
  · cases t with
    | incoming irq' =>
      obtain ⟨orq', hmem⟩ := h
      exact ⟨orq', hs' ▸ Bimap.mem_insert_of_mem hmem irq orq⟩
    | outgoing orq' =>
      obtain ⟨hnull, irq', hmem⟩ := h
      exact ⟨hnull, irq', hs' ▸ Bimap.mem_insert_of_mem hmem irq orq⟩

/-- Both come in if they are new. -/
theorem holds_new (hirq : ∀ orq, (irq, orq) ∉ s.transactions) (horq : ∀ irq, (irq, orq) ∉ s.transactions)
    (hnull : orq ≠ .null) (hs' : s'.transactions = s.transactions.insert irq orq) :
    s'.Holds (.incoming irq) ∧ s'.Holds (.outgoing orq) := by
  have hmem : (irq, orq) ∈ s'.transactions := by
    rw [hs']
    exact (Bimap.mem_insert_of_new hirq horq).2 (.inl rfl)
  exact ⟨⟨orq, hmem⟩, hnull, irq, hmem⟩

/-- The client transaction of a pair is replaced. -/
theorem holds_replace {orqNew : Orq} (hpair : (irq, orq) ∈ s.transactions) (hnull : orq ≠ .null)
    (hnew : ∀ irq, (irq, orqNew) ∉ s.transactions) (hnullNew : orqNew ≠ .null)
    (hs' : s'.transactions = (s.transactions.eraseRight orq).insert irq orqNew) (t : Transaction) :
    s'.Holds t ↔ s.Holds t ∧ ¬t = .outgoing orq ∨ t = .outgoing orqNew := by
  -- In two steps: the old pair goes, which leaves no pair with `irq`, then the new one comes in.
  obtain ⟨u, hu⟩ : ∃ u : Calls, u.transactions = s.transactions.eraseRight orq :=
    ⟨{ s with transactions := s.transactions.eraseRight orq }, rfl⟩
  rw [← hu] at hs'
  have hmem : ∀ {p}, p ∈ u.transactions → p ∈ s.transactions ∧ p.2 ≠ orq := fun h => Bimap.mem_eraseRight.1 (hu ▸ h)
  have herase := holds_eraseRight hpair hnull hu t
  have hinsert := holds_insert hs' t
  obtain ⟨hirq, horq⟩ := holds_new (fun orq' h => (hmem h).2 (Bimap.left_unique (hmem h).1 hpair))
    (fun irq' h => hnew irq' (hmem h).1) hnullNew hs'
  rw [hinsert, herase]
  constructor
  · rintro (⟨hholds, hne⟩ | ⟨-, rfl | rfl⟩)
    · exact .inl ⟨hholds, fun heq => hne (.inr heq)⟩
    · exact .inl ⟨⟨orq, hpair⟩, Transaction.noConfusion⟩
    · exact .inr rfl
  · rintro (⟨hholds, hne⟩ | rfl)
    · by_cases heq : t = .incoming irq
      · subst heq
        exact .inr ⟨hirq, .inl rfl⟩
      · exact .inl ⟨hholds, fun h => h.elim heq hne⟩
    · exact .inr ⟨horq, .inr rfl⟩

theorem getAssociatedOutgoing_of_mem (hmem : (irq, orq) ∈ s.transactions) : s.getAssociatedOutgoing irq = orq := by
  rw [getAssociatedOutgoing, Bimap.left?_eq_some_iff.2 hmem]
  rfl

theorem holds_getAssociatedIncoming (h : s.getAssociatedIncoming orq ≠ .null) :
    s.Holds (.incoming (s.getAssociatedIncoming orq)) :=
  ⟨orq, Controller.mem_of_getAssociatedIncoming h⟩

/-- A client transaction that nta calls back on is not `NULL`. -/
theorem Typed.ne_null (h : s.Typed) {P : Outgoing → Prop} (ho : ∃ o ∈ s.outgoing orq, P o) : orq ≠ .null := by
  rintro rfl
  obtain ⟨o, ho, -⟩ := ho
  rw [h.outgoing_null] at ho
  cases ho

theorem Typed.holds_lt (h : s.Typed) {t : Transaction} (ht : s.Holds t) : t.address < s.next := by
  cases t with
  | incoming irq =>
    obtain ⟨orq, hmem⟩ := ht
    exact (h.pairs_lt irq orq hmem).1
  | outgoing orq =>
    obtain ⟨-, irq, hmem⟩ := ht
    exact (h.pairs_lt irq orq hmem).2

end

end Calls

theorem CallStep.next_le {granted calm : Prop} {s s' : Calls} (h : CallStep granted calm s s') : s.next ≤ s'.next := by
  cases h with
  | receive leg => exact Nat.le_succ _
  | advance n hn => exact hn
  | refuse i status n hn hstatus => exact hn.le
  | openCall callType aLeg bLeg orq request info t n hinfo htype ha hgranted hb horq hn =>
    change s.next ≤ n
    omega
  | forward leg other orq request n hleg hother hnull horq hgranted hn => exact hn.le
  | clearDialog leg hleg hcalm => exact (Calls.clearDialog_next _ _).ge
  | replaceAttempt irq orq orqNew bLeg bLegNew request t n h hleg hlive hinvite ht hcalm hb horq hn =>
    rw [Calls.replaceAttempt_next]
    omega
  | _ => exact le_rfl

namespace Controller

instance (c : Controller) (orq : Orq) (sip : Response) (nta : Creations) : Decidable (c.Retries orq sip nta) :=
  match h : c.attemptOf orq with
  | some _ => decidable_of_iff' _ (retries_iff h sip nta)
  | none => .isFalse (not_retries_of_none h sip nta)

/-- What the handler of an event does with the handles of transactions; `use` stands for one or
    more calls of nta in a row. Looking for a handle in a table is not a use. -/
def handleOps (c : Controller) (e : ControllerEvent) : List (Transaction × HandleOp) :=
  match e with
  | .requestOutsideDialog sip _ _ =>
    let irq : Irq := ⟨c.calls.next⟩
    if sip.validateSipMessage ≠ 0 then []
    else
      match sip.method with
      | .options => if !c.bIsActive then [(.incoming irq, .destroy)] else []
      | .ack => [(.incoming irq, .destroy)]
      | .invite =>
        -- What was created is in the table afterwards.
        let orq := (c.next e).calls.getAssociatedOutgoing irq
        (.incoming irq, .use) :: if orq = .null then [] else [(.outgoing orq, .use)]
      | .bye | .cancel | .other _ => []
  | .inviteResponse orq sip nta =>
    let irq := c.calls.getAssociatedIncoming orq
    if irq = .null then []
    else if c.calls.legFromOutgoing orq = .null then []
    else
      (.incoming irq, .use) ::
        if c.calls.legFromIncoming irq = .null then []
        else if sip.status = 100 then []
        -- It is passed on to the A leg.
        else if sip.status < 200 then [(.incoming irq, .use)]
        else if c.Retries orq sip nta then
          [(.outgoing ((c.next e).calls.getAssociatedOutgoing irq), .use), (.outgoing orq, .destroy)]
        -- The response is passed on, then the pair is cleared.
        else [(.incoming irq, .use), (.incoming irq, .destroy), (.outgoing orq, .destroy)]
  | .ackOrCancel irq method =>
    if method = .cancel then
      let orq := c.calls.getAssociatedOutgoing irq
      (.incoming irq, .use) ::
        if orq = .null ∨ c.calls.legFromIncoming irq = .null then []
        else
          -- `nta_outgoing_cancel` and `nta_outgoing_destroy`, then `clearTransaction`.
          [(.outgoing orq, .use), (.outgoing orq, .destroy),
            (.incoming (c.calls.getAssociatedIncoming orq), .destroy), (.outgoing orq, .destroy)]
    else []
  | .requestInsideDialog _ sip _ =>
    match sip.method with
    | .bye | .ack => [(.incoming ⟨c.calls.next⟩, .destroy)]
    | .invite | .cancel | .options | .other _ => []
  | .responseInsideDialog orq sip =>
    let irq := c.calls.getAssociatedIncoming orq
    if irq = .null then []
    else
      (.incoming irq, .use) ::
        ((if sip.cseqMethod = .invite ∧ sip.status = 200 then [(.outgoing orq, .use)] else []) ++
          if 200 ≤ sip.status then [(.incoming irq, .destroy), (.outgoing orq, .destroy)] else [])
  | .sessionRefreshTimer _ | .retransmittedResponse _ _ | .writeCdr _ | .clock _ | .monitor _
  | .resetTrunkStats => []

section

variable {c : Controller} {orq : Orq}

theorem handleOps_opened {sip : Request} {uuid : Bytes} {nta : Creations}
    (hinvite : sip.validateSipMessage = 0 ∧ sip.method = .invite) :
    c.handleOps (.requestOutsideDialog sip uuid nta) = (.incoming ⟨c.calls.next⟩, .use) ::
      if (c.next (.requestOutsideDialog sip uuid nta)).calls.getAssociatedOutgoing ⟨c.calls.next⟩ = .null then []
      else [(.outgoing ((c.next (.requestOutsideDialog sip uuid nta)).calls.getAssociatedOutgoing ⟨c.calls.next⟩),
        .use)] := by
  unfold handleOps
  simp only [hinvite.1, hinvite.2, ne_eq, not_true_eq_false, if_false]

theorem handleOps_forwarded {leg : Leg} {sip : Request} {nta : Creations}
    (hmethod : sip.method ≠ .bye ∧ sip.method ≠ .ack) : c.handleOps (.requestInsideDialog leg sip nta) = [] := by
  unfold handleOps
  cases hm : sip.method with
  | bye => exact absurd hm hmethod.1
  | ack => exact absurd hm hmethod.2
  | invite | cancel | options | other name => simp only [hm]

theorem handleOps_answered {sip : Response} {nta : Creations} (hreached : c.Reached orq) (hfinal : 200 ≤ sip.status)
    (hretries : ¬c.Retries orq sip nta) : c.handleOps (.inviteResponse orq sip nta) =
      [(.incoming (c.calls.getAssociatedIncoming orq), .use), (.incoming (c.calls.getAssociatedIncoming orq), .use)] ++
        [(.incoming (c.calls.getAssociatedIncoming orq), .destroy), (.outgoing orq, .destroy)] := by
  unfold handleOps
  dsimp only
  rw [if_neg hreached.1, if_neg hreached.2.1, if_neg hreached.2.2, if_neg (by omega), if_neg (by omega),
    if_neg hretries]
  rfl

theorem handleOps_replaced {sip : Response} {nta : Creations} (hreached : c.Reached orq) (hfinal : 200 ≤ sip.status)
    (hretries : c.Retries orq sip nta) : c.handleOps (.inviteResponse orq sip nta) =
      [(.incoming (c.calls.getAssociatedIncoming orq), .use),
        (.outgoing ((c.next (.inviteResponse orq sip nta)).calls.getAssociatedOutgoing
          (c.calls.getAssociatedIncoming orq)), .use)] ++ [(.outgoing orq, .destroy)] := by
  unfold handleOps
  dsimp only
  rw [if_neg hreached.1, if_neg hreached.2.1, if_neg hreached.2.2, if_neg (by omega), if_neg (by omega),
    if_pos hretries]
  rfl

theorem handleOps_settled {sip : Response} (hirq : c.calls.getAssociatedIncoming orq ≠ .null)
    (hfinal : 200 ≤ sip.status) : c.handleOps (.responseInsideDialog orq sip) =
      ((.incoming (c.calls.getAssociatedIncoming orq), .use) ::
        if sip.cseqMethod = .invite ∧ sip.status = 200 then [(.outgoing orq, .use)] else []) ++
        [(.incoming (c.calls.getAssociatedIncoming orq), .destroy), (.outgoing orq, .destroy)] := by
  unfold handleOps
  dsimp only
  rw [if_neg hirq, if_pos hfinal]
  rfl

/-- The client transaction is destroyed once by itself, and once with the pair. -/
theorem handleOps_cancelled {irq : Irq} (hnull : c.calls.getAssociatedOutgoing irq ≠ .null)
    (hleg : c.calls.legFromIncoming irq ≠ .null) : c.handleOps (.ackOrCancel irq .cancel) =
      [(.incoming irq, .use), (.outgoing (c.calls.getAssociatedOutgoing irq), .use)] ++
        [(.outgoing (c.calls.getAssociatedOutgoing irq), .destroy)] ++
        [(.incoming (c.calls.getAssociatedIncoming (c.calls.getAssociatedOutgoing irq)), .destroy),
          (.outgoing (c.calls.getAssociatedOutgoing irq), .destroy)] := by
  unfold handleOps
  dsimp only
  rw [if_pos rfl, if_neg (not_or.2 ⟨hnull, hleg⟩)]
  rfl

end

/-- No CANCEL finds its transaction and the A leg. -/
def SparesInvite (c : Controller) : ControllerEvent → Prop
  | .ackOrCancel irq method =>
    method = .cancel → c.calls.getAssociatedOutgoing irq = .null ∨ c.calls.legFromIncoming irq = .null
  | _ => True

section

variable {c : Controller} {e : ControllerEvent}

theorem next_le (hs : 0 < c.calls.next) (he : c.Possible e) : c.calls.next ≤ (c.next e).calls.next := by
  have hsteps := callSteps_next hs he
  generalize (c.next e).calls = s' at hsteps
  induction hsteps with
  | refl => exact le_rfl
  | tail _ hstep ih => exact ih.trans hstep.next_le

/-- What a new pair is made of. -/
theorem Turn.mem_transactions {c' : Controller} (h : Turn c c' e) {irq : Irq} {orq : Orq}
    (hmem : (irq, orq) ∈ c'.calls.transactions) : (irq, orq) ∈ c.calls.transactions ∨
      (irq = ⟨c.calls.next⟩ ∨ ∃ orq', (irq, orq') ∈ c.calls.transactions) ∧
        (orq = .null ∨ c.calls.next ≤ orq.address) := by
  cases h with
  | idle hidle hbecomes => exact .inl (hbecomes.pairs ▸ hmem)
  | opened orqNew t hinvite ht hcharged horq hbecomes =>
    rcases Bimap.mem_of_mem_insert (hbecomes.pairs ▸ hmem) with heq | hold
    · obtain ⟨rfl, rfl⟩ := Prod.mk.inj heq
      exact .inr ⟨.inl rfl, .inr horq.le⟩
    · exact .inl hold
  | forwarded orqNew hmethod horq hbecomes =>
    rcases Bimap.mem_of_mem_insert (hbecomes.pairs ▸ hmem) with heq | hold
    · obtain ⟨rfl, rfl⟩ := Prod.mk.inj heq
      exact .inr ⟨.inl rfl, horq.imp id le_of_lt⟩
    · exact .inl hold
  | @replaced orqOld sip nta orqNew t hreached hfinal hretries ht horq hbecomes =>
    rcases Bimap.mem_of_mem_insert (hbecomes.pairs ▸ hmem) with heq | hold
    · obtain ⟨rfl, rfl⟩ := Prod.mk.inj heq
      exact .inr ⟨.inr ⟨orqOld, hreached.spec.1⟩, .inr horq.le⟩
    · exact .inl (Bimap.mem_eraseRight.1 hold).1
  | answered hreached hfinal hretries hbecomes => exact .inl (Bimap.mem_eraseRight.1 (hbecomes.pairs ▸ hmem)).1
  | settled hirq hfinal hbecomes => exact .inl (Bimap.mem_eraseRight.1 (hbecomes.pairs ▸ hmem)).1
  | cancelled hnull hleg hbecomes => exact .inl (Bimap.mem_eraseRight.1 (hbecomes.pairs ▸ hmem)).1

/-- What comes into the table is new. -/
theorem Turn.holds {c' : Controller} (h : Turn c c' e) {t : Transaction} (ht : c'.calls.Holds t) :
    c.calls.Holds t ∨ c.calls.next ≤ t.address := by
  cases t with
  | incoming irq =>
    obtain ⟨orq, hmem⟩ := ht
    rcases h.mem_transactions hmem with hold | ⟨rfl | ⟨orq', hold⟩, -⟩
    · exact .inl ⟨orq, hold⟩
    · exact .inr le_rfl
    · exact .inl ⟨orq', hold⟩
  | outgoing orq =>
    obtain ⟨hnull, irq, hmem⟩ := ht
    rcases h.mem_transactions hmem with hold | ⟨-, horq⟩
    · exact .inl ⟨hnull, irq, hold⟩
    · exact .inr (horq.resolve_left hnull)

theorem RefusedCalls.next_lt {s s' : Calls} (h : RefusedCalls s s') : s.next < s'.next := by
  obtain ⟨i, status, n, hn, -, -, rfl⟩ := h
  exact hn

/-- A request has a transaction of its own. -/
theorem next_lt_requestOutsideDialog (c : Controller) (sip : Request) (uuid : Bytes) (nta : Creations) :
    c.calls.next < (c.requestOutsideDialog sip uuid nta).calls.next := by
  rcases c.requestOutsideDialog_cases sip uuid nta with ⟨hrefused, -⟩ | hopened
  · exact hrefused.next_lt
  · cases hopened with
    | origination request info cdr hinfo hcalls hcdr hrecords =>
      rw [hcalls]
      exact Nat.lt_add_of_pos_right (by decide)
    | termination aLeg n request info cdr a hn haLeg hinfo hcalls ha hcdr hrecords =>
      rw [hcalls]
      exact hn.trans (Nat.lt_add_of_pos_right (by decide))

theorem next_lt_requestInsideDialog {leg : Leg} {sip : Request} {nta : Creations}
    (hcrash : ¬(c.requestInsideDialog leg sip nta).Crashed) :
    c.calls.next < (c.requestInsideDialog leg sip nta).calls.next := by
  obtain ⟨other, u, -, hu, hcases⟩ := requestInsideDialog_cases hcrash
  have hnext : u.next = c.calls.next := by rcases hu with rfl | rfl <;> rfl
  rcases hcases with ⟨-, hrefused, -⟩ | ⟨-, hrefused | ⟨orq, request, n, -, hn, heq⟩, -⟩
  · have hlt := hrefused.next_lt
    rw [Calls.clearDialog_next] at hlt
    split_ifs at hlt <;> exact hnext ▸ hlt
  · exact hnext ▸ hrefused.next_lt
  · rw [heq]
    exact hnext ▸ hn

/-- An event does `ops` with the handles, and they are used linearly: those that are `gone` are
    spent, those that are `new` come in, and a request that does not come in is the event's own. -/
structure Sound (c c' : Controller) (ops : List (Transaction × HandleOp)) (gone new : Transaction → Prop) : Prop where
  holds_iff : ∀ t, c'.calls.Holds t ↔ c.calls.Holds t ∧ ¬gone t ∨ new t
  fresh : ∀ t, new t → c.calls.next ≤ t.address
  spent : ∀ t, gone t → c.calls.Holds t ∧ HandleOp.Spent (opsOn ops t)
  used : ∀ t op, (t, op) ∈ ops → ¬gone t → c'.calls.Holds t ∧ op = .use ∨
    t = .incoming ⟨c.calls.next⟩ ∧ ¬c'.calls.Holds t ∧ c.calls.next < c'.calls.next

section Sound

variable {c' : Controller} {ops : List (Transaction × HandleOp)}

/-- The table is left alone. -/
theorem sound_of_same (hs : c.calls.Typed) (hpairs : c'.calls.transactions = c.calls.transactions)
    (hops : ∀ t op, (t, op) ∈ ops → c.calls.Holds t ∧ op = .use ∨
      t = .incoming ⟨c.calls.next⟩ ∧ c.calls.next < c'.calls.next) :
    Sound c c' ops (fun _ => False) fun _ => False := by
  have hholds : ∀ t, c'.calls.Holds t ↔ c.calls.Holds t := by
    intro t
    cases t <;> simp only [Calls.Holds, hpairs]
  refine ⟨fun t => by simp [hholds], fun t ht => ht.elim, fun t ht => ht.elim, fun t op hmem _ => ?_⟩
  rw [hholds]
  refine (hops t op hmem).imp id ?_
  rintro ⟨rfl, hlt⟩
  exact ⟨rfl, fun ⟨orq, hmem⟩ => hs.irq_fresh orq hmem, hlt⟩

/-- The pair of a new request comes in. -/
theorem sound_of_insert {orq : Orq} (horq : orq = .null ∨ c.calls.next < orq.address)
    (hpairs : c'.calls.transactions = c.calls.transactions.insert ⟨c.calls.next⟩ orq)
    (hops : ∀ t op, (t, op) ∈ ops → c'.calls.Holds t ∧ op = .use) :
    Sound c c' ops (fun _ => False)
      fun t => c'.calls.Holds t ∧ (t = .incoming ⟨c.calls.next⟩ ∨ t = .outgoing orq) := by
  refine ⟨fun t => ?_, ?_, fun t ht => ht.elim, fun t op hmem _ => .inl (hops t op hmem)⟩
  · rw [not_false_eq_true, and_true]
    exact Calls.holds_insert hpairs t
  · rintro t ⟨hholds, rfl | rfl⟩
    · exact le_rfl
    · exact (horq.resolve_left hholds.1).le

/-- A pair is settled, after some uses of its handles. -/
theorem sound_of_erase {irq : Irq} {orq : Orq} (hpair : (irq, orq) ∈ c.calls.transactions) (hnull : orq ≠ .null)
    (hpairs : c'.calls.transactions = c.calls.transactions.eraseRight orq)
    {l : List (Transaction × HandleOp)} (hl : ∀ p ∈ l, p = (.incoming irq, .use) ∨ p = (.outgoing orq, .use)) :
    Sound c c' (l ++ [(.incoming irq, .destroy), (.outgoing orq, .destroy)])
      (fun t => t = .incoming irq ∨ t = .outgoing orq) fun _ => False := by
  have huse : ∀ p ∈ l, p.2 = .use := fun p hp => (hl p hp).elim (congrArg Prod.snd) (congrArg Prod.snd)
  refine ⟨fun t => ?_, fun t ht => ht.elim, ?_, fun t op hmem hstays => absurd ?_ hstays⟩
  · rw [or_false]
    exact Calls.holds_eraseRight hpair hnull hpairs t
  · rintro t (rfl | rfl)
    -- The uses before leave the handles alive, so only what is done last counts.
    · refine ⟨⟨orq, hpair⟩, ?_⟩
      rw [opsOn_append, (live_opsOn huse _).spent_append]
      exact ⟨[], HandleOp.live_nil, by simp [opsOn]⟩
    · refine ⟨⟨hnull, irq, hpair⟩, ?_⟩
      rw [opsOn_append, (live_opsOn huse _).spent_append]
      exact ⟨[], HandleOp.live_nil, by simp [opsOn]⟩
  · rcases List.mem_append.1 hmem with hmem | hmem
    · exact (hl _ hmem).imp (congrArg Prod.fst) (congrArg Prod.fst)
    · rcases List.mem_cons.1 hmem with heq | hmem
      · exact .inl (congrArg Prod.fst heq)
      · exact .inr (congrArg Prod.fst (List.mem_singleton.1 hmem))

/-- A client transaction is replaced. -/
theorem sound_of_replace {irq : Irq} {orq orqNew : Orq} (hpair : (irq, orq) ∈ c.calls.transactions) (hnull : orq ≠ .null)
    (hnew : ∀ irq, (irq, orqNew) ∉ c.calls.transactions) (horq : c.calls.next < orqNew.address)
    (hpairs : c'.calls.transactions = (c.calls.transactions.eraseRight orq).insert irq orqNew) :
    Sound c c' [(.incoming irq, .use), (.outgoing orqNew, .use), (.outgoing orq, .destroy)] (· = .outgoing orq)
      (· = .outgoing orqNew) := by
  have hholds := Calls.holds_replace hpair hnull hnew (Handle.mk_ne_null (by omega)) hpairs
  have hne : orqNew ≠ orq := by
    rintro rfl
    exact hnew irq hpair
  refine ⟨hholds, ?_, ?_, fun t op hmem hstays => .inl ?_⟩
  · rintro t rfl
    exact horq.le
  · rintro t rfl
    refine ⟨⟨hnull, irq, hpair⟩, [], HandleOp.live_nil, ?_⟩
    simp [opsOn, hne]
  · simp only [List.mem_cons, List.not_mem_nil, or_false, Prod.mk.injEq] at hmem
    rcases hmem with ⟨rfl, rfl⟩ | ⟨rfl, rfl⟩ | ⟨rfl, -⟩
    · exact ⟨(hholds _).2 (.inl ⟨⟨orq, hpair⟩, Transaction.noConfusion⟩), rfl⟩
    · exact ⟨(hholds _).2 (.inr rfl), rfl⟩
    · exact absurd rfl hstays

end Sound

/-! ## The events -/

/-- An event that leaves the table alone. -/
theorem sound_of_idle (hs : c.calls.Typed) (he : machine.enabled c e) (hidle : c.Idles e)
    (hpairs : (c.next e).calls.transactions = c.calls.transactions) :
    Sound c (c.next e) (c.handleOps e) (fun _ => False) fun _ => False := by
  refine sound_of_same hs hpairs fun t op hmem => ?_
  unfold handleOps at hmem
  cases e with
  | requestOutsideDialog sip uuid nta =>
    right
    refine ⟨?_, c.next_lt_requestOutsideDialog sip uuid nta⟩
    -- There is no client transaction for it.
    have hnull : (c.next (.requestOutsideDialog sip uuid nta)).calls.getAssociatedOutgoing ⟨c.calls.next⟩ = .null := by
      by_contra hne
      exact hs.irq_fresh _ (hpairs ▸ mem_of_getAssociatedOutgoing hne)
    have hown : ∀ op', (t, op) ∈ [(Transaction.incoming ⟨c.calls.next⟩, op')] → t = .incoming ⟨c.calls.next⟩ :=
      fun op' h => congrArg Prod.fst (List.mem_singleton.1 h)
    simp only [hnull, if_true] at hmem
    by_cases hvalid : sip.validateSipMessage = 0
    · rw [if_neg (not_not.2 hvalid)] at hmem
      cases hmethod : sip.method with
      | options =>
        rw [hmethod] at hmem
        cases hactive : c.bIsActive with
        | false =>
          simp only [hactive] at hmem
          exact hown _ hmem
        | true =>
          simp only [hactive] at hmem
          cases hmem
      | ack | invite =>
        rw [hmethod] at hmem
        exact hown _ hmem
      | bye | cancel | other name =>
        rw [hmethod] at hmem
        cases hmem
    · rw [if_pos hvalid] at hmem
      cases hmem
  | inviteResponse orq sip nta =>
    left
    dsimp only at hmem
    split_ifs at hmem with hirq hbLeg haLeg htrying hprovisional hretries
    · cases hmem
    · cases hmem
    · obtain ⟨rfl, rfl⟩ := Prod.mk.inj (List.mem_singleton.1 hmem)
      exact ⟨Calls.holds_getAssociatedIncoming hirq, rfl⟩
    · obtain ⟨rfl, rfl⟩ := Prod.mk.inj (List.mem_singleton.1 hmem)
      exact ⟨Calls.holds_getAssociatedIncoming hirq, rfl⟩
    · have huse : (t, op) = (.incoming (c.calls.getAssociatedIncoming orq), .use) :=
        (List.mem_cons.1 hmem).elim id List.mem_singleton.1
      obtain ⟨rfl, rfl⟩ := Prod.mk.inj huse
      exact ⟨Calls.holds_getAssociatedIncoming hirq, rfl⟩
    · exact absurd ⟨⟨hirq, hbLeg, haLeg⟩, not_lt.1 hprovisional⟩ hidle
    · exact absurd ⟨⟨hirq, hbLeg, haLeg⟩, not_lt.1 hprovisional⟩ hidle
  | ackOrCancel irq method =>
    left
    obtain ⟨i, hi, hbound, hdestroyed⟩ := he.1
    obtain ⟨orq, -, hpair⟩ := hs.bound irq i hi hbound hdestroyed
    dsimp only at hmem
    split_ifs at hmem with hcancel hfound
    · obtain ⟨rfl, rfl⟩ := Prod.mk.inj (List.mem_singleton.1 hmem)
      exact ⟨⟨orq, hpair⟩, rfl⟩
    · exact absurd (hidle hcancel) hfound
    · cases hmem
  | requestInsideDialog leg sip nta =>
    right
    refine ⟨?_, next_lt_requestInsideDialog he.2⟩
    cases hmethod : sip.method with
    | bye | ack =>
      simp only [hmethod] at hmem
      exact congrArg Prod.fst (List.mem_singleton.1 hmem)
    | invite | cancel | options | other name =>
      simp only [hmethod] at hmem
      cases hmem
  | responseInsideDialog orq sip =>
    left
    dsimp only at hmem
    by_cases hirq : c.calls.getAssociatedIncoming orq = .null
    · rw [if_pos hirq] at hmem
      cases hmem
    · -- It is a provisional response, so that there is no ACK.
      have hprovisional : ¬200 ≤ sip.status := fun hfinal => hidle ⟨hirq, hfinal⟩
      rw [if_neg hirq, if_neg (fun h => hprovisional h.2.ge), if_neg hprovisional] at hmem
      obtain ⟨rfl, rfl⟩ := Prod.mk.inj (List.mem_singleton.1 hmem)
      exact ⟨Calls.holds_getAssociatedIncoming hirq, rfl⟩
  | _ => exact absurd hmem List.not_mem_nil

/-- Every event but a CANCEL that finds its transaction and the A leg. -/
theorem exists_sound (hs : c.calls.Typed) (h : c.AttemptInv) (he : machine.enabled c e) (hspares : c.SparesInvite e) :
    ∃ gone new, Sound c (c.next e) (c.handleOps e) gone new := by
  have hturn := turn_next hs h he
  have hirq := hs.irq_fresh
  -- By what becomes of the tables; the operations are then those of one branch of `handleOps`.
  cases hturn with
  | idle hidle hbecomes => exact ⟨_, _, sound_of_idle hs he hidle hbecomes.pairs⟩
  | @opened sip uuid nta orq t hinvite ht hcharged horq hbecomes =>
    have hnull : orq ≠ .null := Handle.mk_ne_null (by omega)
    obtain ⟨hin, hout⟩ := Calls.holds_new hirq (hs.orq_fresh horq) hnull hbecomes.pairs
    refine ⟨_, _, sound_of_insert (.inr horq) hbecomes.pairs fun t op hmem => ?_⟩
    have hmem' : (⟨c.calls.next⟩, orq) ∈ (c.next (.requestOutsideDialog sip uuid nta)).calls.transactions := by
      rw [hbecomes.pairs]
      exact (Bimap.mem_insert_of_new hirq (hs.orq_fresh horq)).2 (.inl rfl)
    rw [handleOps_opened hinvite, Calls.getAssociatedOutgoing_of_mem hmem', if_neg hnull] at hmem
    rcases List.mem_cons.1 hmem with heq | hmem
    · obtain ⟨rfl, rfl⟩ := Prod.mk.inj heq
      exact ⟨hin, rfl⟩
    · obtain ⟨rfl, rfl⟩ := Prod.mk.inj (List.mem_singleton.1 hmem)
      exact ⟨hout, rfl⟩
  | @forwarded leg sip nta orq hmethod horq hbecomes =>
    refine ⟨_, _, sound_of_insert horq hbecomes.pairs fun t op hmem => ?_⟩
    rw [handleOps_forwarded hmethod] at hmem
    cases hmem
  | @answered orq sip nta hreached hfinal hretries hbecomes =>
    rw [handleOps_answered hreached hfinal hretries]
    refine ⟨_, _, sound_of_erase (mem_of_getAssociatedIncoming hreached.1) (hs.ne_null he.1) hbecomes.pairs
      fun p hp => .inl ?_⟩
    exact (List.mem_cons.1 hp).elim id List.mem_singleton.1
  | @replaced orq sip nta orqNew t hreached hfinal hretries ht horq hbecomes =>
    have hpair := mem_of_getAssociatedIncoming hreached.1
    have hmem : (c.calls.getAssociatedIncoming orq, orqNew) ∈ (c.next (.inviteResponse orq sip nta)).calls.transactions := by
      rw [hbecomes.pairs]
      refine (Bimap.mem_insert_of_new (fun orq' hmem => ?_) fun irq hmem => ?_).2 (.inl rfl)
      · obtain ⟨hmem, hne⟩ := Bimap.mem_eraseRight.1 hmem
        exact hne (Bimap.left_unique hmem hpair)
      · exact hs.orq_fresh horq irq (Bimap.mem_eraseRight.1 hmem).1
    rw [handleOps_replaced hreached hfinal hretries, Calls.getAssociatedOutgoing_of_mem hmem]
    exact ⟨_, _, sound_of_replace hpair (hs.ne_null he.1) (hs.orq_fresh horq) horq hbecomes.pairs⟩
  | @settled orq sip hirq' hfinal hbecomes =>
    rw [handleOps_settled hirq' hfinal]
    refine ⟨_, _, sound_of_erase (mem_of_getAssociatedIncoming hirq') (hs.ne_null he.1) hbecomes.pairs fun p hp => ?_⟩
    rcases List.mem_cons.1 hp with heq | hp
    · exact .inl heq
    · split_ifs at hp
      · exact .inr (List.mem_singleton.1 hp)
      · cases hp
  | cancelled hnull hleg hbecomes => exact absurd (hspares rfl) (not_or.2 ⟨hnull, hleg⟩)

end

end Controller

/-! ## What is given back -/

namespace Calls

/-- How often a transaction was destroyed. -/
def timesDestroyed (s : Calls) : Transaction → Option ℕ
  | .incoming irq => (s.incoming irq).map (·.destroyed)
  | .outgoing orq => (s.outgoing orq).map (·.destroyed)

/-- The transactions that are there stay as they are. -/
def KeepsTransactions (s s' : Calls) : Prop :=
  (∀ irq : Irq, irq.address < s.next → s'.incoming irq = s.incoming irq) ∧
    ∀ orq : Orq, orq.address < s.next → s'.outgoing orq = s.outgoing orq

/-- Of the transactions that are there, `s'` has those destroyed in addition, and as often, that `ops` destroys. -/
def GivesBack (s s' : Calls) (ops : List (Transaction × HandleOp)) : Prop :=
  ∀ t, t.address < s.next → s'.timesDestroyed t = (s.timesDestroyed t).map (· + (opsOn ops t).count .destroy)

section

variable {s s' s'' : Calls} {ops ops' : List (Transaction × HandleOp)} {irq : Irq} {orq : Orq}

theorem keepsTransactions_of_eq (hin : s'.incoming = s.incoming) (hout : s'.outgoing = s.outgoing) :
    s.KeepsTransactions s' :=
  ⟨fun irq _ => congrFun hin irq, fun orq _ => congrFun hout orq⟩

/-- A new server transaction comes in. -/
theorem keepsTransactions_of_update {i : Incoming} (hin : s'.incoming = Function.update s.incoming ⟨s.next⟩ (some i))
    (hout : ∀ orq : Orq, orq.address < s.next → s'.outgoing orq = s.outgoing orq) : s.KeepsTransactions s' := by
  refine ⟨fun irq hlt => ?_, hout⟩
  rw [hin]
  refine Function.update_of_ne ?_ _ _
  rintro rfl
  exact lt_irrefl _ hlt

theorem update_of_new {o : Outgoing} {orqNew : Orq} (hnew : s.next ≤ orqNew.address) {orq : Orq}
    (hlt : orq.address < s.next) : Function.update s.outgoing orqNew (some o) orq = s.outgoing orq := by
  refine Function.update_of_ne ?_ _ _
  rintro rfl
  omega

/-- What is destroyed of the event's own transaction is no matter. -/
theorem KeepsTransactions.givesBack (h : s.KeepsTransactions s')
    (hops : ∀ t, (t, .destroy) ∈ ops → s.next ≤ t.address) : s.GivesBack s' ops := by
  intro t ht
  have hzero : (opsOn ops t).count .destroy = 0 :=
    List.count_eq_zero.2 fun hmem => absurd (hops t (mem_opsOn.1 hmem)) (not_le.2 ht)
  rw [hzero]
  cases t with
  | incoming irq => simp [timesDestroyed, h.1 irq ht, Function.comp_def]
  | outgoing orq => simp [timesDestroyed, h.2 orq ht, Function.comp_def]

theorem GivesBack.trans (h : s.GivesBack s' ops) (h' : s'.GivesBack s'' ops') (hle : s.next ≤ s'.next) :
    s.GivesBack s'' (ops ++ ops') := by
  intro t ht
  rw [h' t (ht.trans_le hle), h t ht, Option.map_map, opsOn_append, List.count_append]
  simp only [Function.comp_def, Nat.add_assoc]

/-- Some uses before are no matter. -/
theorem GivesBack.uses (h : s.GivesBack s' ops) (ts : List Transaction) :
    s.GivesBack s' (ts.map (·, .use) ++ ops) :=
  ((keepsTransactions_of_eq rfl rfl).givesBack (by simp)).trans h le_rfl

/-- Only the transactions matter. -/
theorem GivesBack.congr (h : s.GivesBack s' ops) (hin : s''.incoming = s'.incoming)
    (hout : s''.outgoing = s'.outgoing) : s.GivesBack s'' ops := by
  intro t ht
  rw [← h t ht]
  cases t with
  | incoming irq => exact congrArg (Option.map _) (congrFun hin irq)
  | outgoing orq => exact congrArg (Option.map _) (congrFun hout orq)

theorem givesBack_destroyIncoming (s : Calls) (irq : Irq) :
    s.GivesBack (s.destroyIncoming irq) [(.incoming irq, .destroy)] := by
  intro t _
  cases t with
  | incoming irq' =>
    change (Function.update s.incoming irq _ irq').map _ = _
    by_cases heq : irq' = irq
    · subst heq
      simp [timesDestroyed, opsOn, Function.comp_def]
    · simp [timesDestroyed, opsOn, Function.update_of_ne heq, Ne.symm heq, Function.comp_def]
  | outgoing orq => simp [timesDestroyed, destroyIncoming, opsOn, Function.comp_def]

theorem givesBack_destroyOutgoing (s : Calls) (orq : Orq) :
    s.GivesBack (s.destroyOutgoing orq) [(.outgoing orq, .destroy)] := by
  intro t _
  cases t with
  | incoming irq => simp [timesDestroyed, destroyOutgoing, opsOn, Function.comp_def]
  | outgoing orq' =>
    change (Function.update s.outgoing orq _ orq').map _ = _
    by_cases heq : orq' = orq
    · subst heq
      simp [timesDestroyed, opsOn, Function.comp_def]
    · simp [timesDestroyed, opsOn, Function.update_of_ne heq, Ne.symm heq, Function.comp_def]

theorem givesBack_clearTransaction (s : Calls) (orq : Orq) : s.GivesBack (s.clearTransaction orq)
    [(.incoming (s.getAssociatedIncoming orq), .destroy), (.outgoing orq, .destroy)] := by
  have hout : (s.destroyIncoming (s.getAssociatedIncoming orq)).GivesBack (s.clearTransaction orq)
      [(.outgoing orq, .destroy)] := (givesBack_destroyOutgoing _ orq).congr rfl rfl
  exact (givesBack_destroyIncoming s _).trans hout le_rfl

/-- A pair is settled. -/
theorem givesBack_settle {u : Calls} (hin : u.incoming = s.incoming) (hout : u.outgoing = s.outgoing)
    (hpairs : u.transactions = s.transactions) (irq : Irq) (orq : Orq) (reply : Reply) (acks : List Leg) :
    s.GivesBack (u.settle irq orq reply acks)
      [(.incoming (s.getAssociatedIncoming orq), .destroy), (.outgoing orq, .destroy)] := by
  refine (givesBack_clearTransaction s orq).congr ?_ ?_ <;>
    simp only [settle, clearTransaction, getAssociatedIncoming, destroyIncoming, destroyOutgoing, hin, hout, hpairs]

/-- The client transaction of a pair is replaced. -/
theorem givesBack_replaceAttempt {orqNew : Orq} (hnew : s.next ≤ orqNew.address) (irq : Irq) (orq : Orq)
    (bLeg bLegNew : Leg) (request : OutgoingRequest) (t n : ℕ) :
    s.GivesBack (s.replaceAttempt irq orq orqNew bLeg bLegNew request t n) [(.outgoing orq, .destroy)] := by
  have hcreated : s.KeepsTransactions { s with
      outgoing := Function.update s.outgoing orqNew (some ⟨bLegNew, .responseToInvite, request, 0⟩) } :=
    ⟨fun _ _ => rfl, fun orq' hlt => update_of_new hnew hlt⟩
  have hnothing : s.GivesBack _ [] := hcreated.givesBack fun _ h => nomatch h
  exact (hnothing.trans (givesBack_destroyOutgoing _ orq) le_rfl).congr (replaceAttempt_incoming ..)
    (replaceAttempt_outgoing ..)

end

end Calls

namespace Controller

section

variable {c : Controller} {e : ControllerEvent}

theorem RefusedCalls.keepsTransactions {s s' : Calls} (h : RefusedCalls s s') : s.KeepsTransactions s' := by
  obtain ⟨i, status, n, -, -, -, rfl⟩ := h
  exact Calls.keepsTransactions_of_update rfl fun _ _ => rfl

theorem keepsTransactions_requestOutsideDialog (c : Controller) (sip : Request) (uuid : Bytes) (nta : Creations) :
    c.calls.KeepsTransactions (c.requestOutsideDialog sip uuid nta).calls := by
  rcases c.requestOutsideDialog_cases sip uuid nta with ⟨hrefused, -⟩ | hopening
  · exact hrefused.keepsTransactions
  · cases hopening with
    | origination request info cdr hinfo hcalls hcdr hrecords =>
      rw [hcalls]
      exact Calls.keepsTransactions_of_update rfl fun orq hlt => Calls.update_of_new (Nat.le_add_right _ _) hlt
    | termination aLeg n request info cdr a hn haLeg hinfo hcalls ha hcdr hrecords =>
      rw [hcalls]
      exact Calls.keepsTransactions_of_update rfl fun orq hlt => Calls.update_of_new (Nat.le_succ_of_le hn.le) hlt

theorem keepsTransactions_requestInsideDialog {leg : Leg} {sip : Request} {nta : Creations}
    (hcrash : ¬(c.requestInsideDialog leg sip nta).Crashed) :
    c.calls.KeepsTransactions (c.requestInsideDialog leg sip nta).calls := by
  obtain ⟨other, u, -, hu, hcases⟩ := requestInsideDialog_cases hcrash
  generalize (c.requestInsideDialog leg sip nta).calls = s' at hcases
  have hcongr : ∀ {v : Calls}, v.next = c.calls.next → v.incoming = c.calls.incoming → v.outgoing = c.calls.outgoing →
      v.KeepsTransactions s' → c.calls.KeepsTransactions s' := by
    intro v hnext hin hout h
    rwa [Calls.KeepsTransactions, hnext, hin, hout] at h
  have hu' : u.next = c.calls.next ∧ u.incoming = c.calls.incoming ∧ u.outgoing = c.calls.outgoing := by
    rcases hu with rfl | rfl <;> exact ⟨rfl, rfl, rfl⟩
  rcases hcases with ⟨-, hrefused, -⟩ | ⟨-, hrefused | ⟨orq, request, n, horq, hn, rfl⟩, -⟩
  · refine hcongr ?_ ?_ ?_ hrefused.keepsTransactions
    · rw [Calls.clearDialog_next]
      split_ifs <;> exact hu'.1
    · rw [Calls.clearDialog_incoming]
      split_ifs <;> exact hu'.2.1
    · rw [Calls.clearDialog_outgoing]
      split_ifs <;> exact hu'.2.2
  · exact hcongr hu'.1 hu'.2.1 hu'.2.2 hrefused.keepsTransactions
  · refine hcongr hu'.1 hu'.2.1 hu'.2.2 (Calls.keepsTransactions_of_update rfl fun orq' hlt => ?_)
    change (if orq = .null then u.outgoing else Function.update u.outgoing orq _) orq' = _
    split_ifs with hnull
    · rfl
    · exact Calls.update_of_new (horq.resolve_left hnull).1.le hlt

theorem keepsTransactions_inviteResponse {orq : Orq} {sip : Response} (hidle : ¬(c.Reached orq ∧ 200 ≤ sip.status))
    (nta : Creations) : c.calls.KeepsTransactions (c.processInviteResponseInsideDialog orq sip nta).calls := by
  by_cases hreached : c.Reached orq
  · have hprovisional : sip.status < 200 := not_le.1 fun hfinal => hidle ⟨hreached, hfinal⟩
    rw [inviteResponse_of_reached hreached]
    obtain ⟨heq | ⟨reply, -, heq⟩, -⟩ := processInviteResponse_provisional hprovisional c
      (c.calls.getAssociatedIncoming orq) orq
      (c.calls.legFromIncoming (c.calls.getAssociatedIncoming orq)) (c.calls.legFromOutgoing orq) nta <;> rw [heq]
    · exact Calls.keepsTransactions_of_eq rfl rfl
    · exact Calls.keepsTransactions_of_eq rfl rfl
  · obtain ⟨a, heq⟩ := inviteResponse_of_not_reached hreached sip nta
    rw [heq]
    exact Calls.keepsTransactions_of_eq rfl rfl

theorem keepsTransactions_responseInsideDialog {orq : Orq} {sip : Response}
    (hidle : ¬(c.calls.getAssociatedIncoming orq ≠ .null ∧ 200 ≤ sip.status)) :
    c.calls.KeepsTransactions (c.processResponseInsideDialog orq sip).calls := by
  unfold processResponseInsideDialog
  by_cases hnull : c.calls.getAssociatedIncoming orq = .null
  · simp only [if_pos hnull]
    exact Calls.keepsTransactions_of_eq rfl rfl
  · have hprovisional : ¬200 ≤ sip.status := fun hfinal => hidle ⟨hnull, hfinal⟩
    unfold acknowledge
    simp only [if_neg hnull, if_neg hprovisional]
    rw [if_neg (by omega)]
    exact Calls.keepsTransactions_of_eq rfl rfl

/-- A CANCEL that does not find its transaction or the A leg. -/
theorem keepsTransactions_cancel {irq : Irq} (hcrash : ¬(c.processCancel irq).Crashed)
    (hidle : c.calls.getAssociatedOutgoing irq = .null ∨ c.calls.legFromIncoming irq = .null) :
    c.calls.KeepsTransactions (c.processCancel irq).calls := by
  rcases processCancel_cases hcrash with ⟨-, -, heq | ⟨-, -, heq⟩⟩ | ⟨hnull, hleg, -⟩
  · rw [heq]
    exact Calls.keepsTransactions_of_eq rfl rfl
  · rw [heq]
    exact Calls.keepsTransactions_of_eq (Calls.clearDialog_incoming _ _) (Calls.clearDialog_outgoing _ _)
  · exact absurd hidle (not_or.2 ⟨hnull, hleg⟩)

/-- An event that ends no pair leaves the transactions that are there alone. -/
theorem keepsTransactions_of_idle (he : machine.enabled c e) (hidle : c.Idles e) :
    c.calls.KeepsTransactions (c.next e).calls := by
  obtain ⟨hpossible, hcrash⟩ := he
  cases e with
  | requestOutsideDialog sip uuid nta => exact c.keepsTransactions_requestOutsideDialog sip uuid nta
  | inviteResponse orq sip nta => exact keepsTransactions_inviteResponse hidle nta
  | ackOrCancel irq method =>
    change c.calls.KeepsTransactions (c.processAckOrCancel irq method).calls
    change ¬(c.processAckOrCancel irq method).Crashed at hcrash
    unfold processAckOrCancel at hcrash ⊢
    split_ifs at hcrash ⊢ with hmethod
    · exact keepsTransactions_cancel hcrash (hidle hmethod)
    · exact Calls.keepsTransactions_of_eq rfl rfl
  | requestInsideDialog leg sip nta => exact keepsTransactions_requestInsideDialog hcrash
  | responseInsideDialog orq sip => exact keepsTransactions_responseInsideDialog hidle
  | sessionRefreshTimer leg =>
    obtain ⟨d, hd, -⟩ := hpossible
    obtain ⟨-, other, u, -, hu, heq⟩ := sessionRefreshTimer_cases (Option.ne_none_iff_exists'.2 ⟨d, hd⟩) hcrash
    change c.calls.KeepsTransactions (c.processSessionRefreshTimer leg).calls
    rw [heq]
    refine Calls.keepsTransactions_of_eq ((Calls.clearDialog_incoming _ _).trans ?_)
      ((Calls.clearDialog_outgoing _ _).trans ?_)
    · rcases hu with rfl | ⟨a, rfl⟩ <;> rfl
    · rcases hu with rfl | ⟨a, rfl⟩ <;> rfl
  | retransmittedResponse leg sip =>
    change c.calls.KeepsTransactions (c.processRetransmittedResponse leg sip).calls
    obtain ⟨-, heq | heq⟩ := c.retransmittedResponse_cases leg sip <;> rw [heq]
    · exact Calls.keepsTransactions_of_eq rfl rfl
    · exact Calls.keepsTransactions_of_eq rfl rfl
  | writeCdr connected | clock now | monitor fsMonitor | resetTrunkStats =>
    exact Calls.keepsTransactions_of_eq rfl rfl

/-- An attempt gets a final response. -/
theorem givesBack_attempt (hs : c.calls.Typed) (h : c.AttemptInv) {orq : Orq} {sip : Response} {nta : Creations}
    (hreached : c.Reached orq) (hfinal : 200 ≤ sip.status) {t : ℕ} {a : TerminationAttempt}
    (ht : c.attemptOf orq = some (t, a)) :
    c.calls.GivesBack (c.processInviteResponseInsideDialog orq sip nta).calls
      (c.handleOps (.inviteResponse orq sip nta)) := by
  have houtcome := processInviteResponse_outcome hs.next_pos ht hfinal (c.calls.getAssociatedIncoming orq)
    (c.calls.legFromIncoming (c.calls.getAssociatedIncoming orq)) (c.calls.legFromOutgoing orq) nta
  rw [← inviteResponse_of_reached hreached] at houtcome
  rcases houtcome.calls_cases h ht with ⟨hno, ⟨reply, hcalls⟩ | ⟨n, reply, hcalls⟩⟩ | ⟨hyes, request, hcalls⟩
  · rw [handleOps_answered hreached hfinal hno, hcalls]
    exact (Calls.givesBack_settle (s := c.calls) (u := (c.calls.record (.sent _ .ack)).eraseAttempt orq) rfl rfl rfl
      _ orq reply []).uses [_, _]
  · rw [handleOps_answered hreached hfinal hno, hcalls]
    exact ((Calls.givesBack_settle (s := c.calls) (u := Calls.eraseAttempt { c.calls with next := n } orq) rfl rfl rfl
      _ orq reply []).congr (Calls.clearDialog_incoming _ _) (Calls.clearDialog_outgoing _ _)).uses [_, _]
  · rw [handleOps_replaced hreached hfinal hyes, hcalls]
    exact (Calls.givesBack_replaceAttempt (Nat.le_succ _) _ _ _ _ _ _ _).uses [_, _]

/-- The INVITE of an origination call gets a final response. -/
theorem givesBack_origination {orq : Orq} {sip : Response} {nta : Creations} (hreached : c.Reached orq)
    (hfinal : 200 ≤ sip.status) (ht : c.attemptOf orq = none) :
    c.calls.GivesBack (c.processInviteResponseInsideDialog orq sip nta).calls
      (c.handleOps (.inviteResponse orq sip nta)) := by
  obtain ⟨reply, f, -, -, hcalls, -⟩ := processInviteResponse_origination ht hfinal
    (c.calls.getAssociatedIncoming orq) (c.calls.legFromIncoming (c.calls.getAssociatedIncoming orq))
    (c.calls.legFromOutgoing orq) nta
  rw [← inviteResponse_of_reached hreached] at hcalls
  rw [handleOps_answered hreached hfinal (not_retries_of_none ht sip nta)]
  rcases hcalls with ⟨-, k, -, hcalls⟩ | ⟨-, hcalls⟩
  · rw [hcalls]
    exact (Calls.givesBack_settle (s := c.calls) (u := (c.calls.record (.sent _ .ack)).updateDialogInfo _ k) rfl rfl rfl
      _ orq reply []).uses [_, _]
  · rw [hcalls]
    exact ((Calls.givesBack_settle (s := c.calls) (u := c.calls) rfl rfl rfl _ orq reply []).congr
      (Calls.clearDialog_incoming _ _) (Calls.clearDialog_outgoing _ _)).uses [_, _]

theorem givesBack_inviteResponse (hs : c.calls.Typed) (h : c.AttemptInv) {orq : Orq} {sip : Response} {nta : Creations}
    (hreached : c.Reached orq) (hfinal : 200 ≤ sip.status) :
    c.calls.GivesBack (c.processInviteResponseInsideDialog orq sip nta).calls
      (c.handleOps (.inviteResponse orq sip nta)) := by
  cases ht : c.attemptOf orq with
  | some p => exact givesBack_attempt hs h hreached hfinal ht
  | none => exact givesBack_origination hreached hfinal ht

theorem givesBack_responseInsideDialog {orq : Orq} {sip : Response} (hirq : c.calls.getAssociatedIncoming orq ≠ .null)
    (hfinal : 200 ≤ sip.status) : c.calls.GivesBack (c.processResponseInsideDialog orq sip).calls
      (c.handleOps (.responseInsideDialog orq sip)) := by
  have hsettled : ∀ {u : Calls}, u.incoming = c.calls.incoming → u.outgoing = c.calls.outgoing →
      u.transactions = c.calls.transactions → ∀ reply acks, c.calls.GivesBack
        (u.settle (c.calls.getAssociatedIncoming orq) orq reply acks)
        (c.handleOps (.responseInsideDialog orq sip)) := by
    intro u hin hout hpairs reply acks
    have hback := Calls.givesBack_settle hin hout hpairs (c.calls.getAssociatedIncoming orq) orq reply acks
    rw [handleOps_settled hirq hfinal]
    split_ifs
    · exact hback.uses [_, _]
    · exact hback.uses [_]
  obtain ⟨-, u, reply, acks, rfl | ⟨a, rfl⟩, hcalls⟩ := responseInsideDialog_final hirq hfinal <;> rw [hcalls]
  · exact hsettled rfl rfl rfl reply acks
  · exact hsettled rfl rfl rfl reply acks

/-- A CANCEL that finds its transaction and the A leg. -/
theorem givesBack_cancel {irq : Irq} (hcrash : ¬(c.processCancel irq).Crashed)
    (hnull : c.calls.getAssociatedOutgoing irq ≠ .null) (hleg : c.calls.legFromIncoming irq ≠ .null) :
    c.calls.GivesBack (c.processCancel irq).calls (c.handleOps (.ackOrCancel irq .cancel)) := by
  rcases processCancel_cases hcrash with ⟨hidle, -⟩ | ⟨-, -, hcalls, -⟩
  · exact absurd hidle (not_or.2 ⟨hnull, hleg⟩)
  · rw [handleOps_cancelled hnull hleg, hcalls]
    generalize c.calls.getAssociatedOutgoing irq = orq
    have hone : c.calls.GivesBack ((c.calls.record (.cancelled irq)).destroyOutgoing orq)
        ([(.incoming irq, .use), (.outgoing orq, .use)] ++ [(.outgoing orq, .destroy)]) :=
      ((Calls.givesBack_destroyOutgoing c.calls orq).congr rfl rfl).uses [_, _]
    exact (hone.trans (Calls.givesBack_clearTransaction _ orq) le_rfl).congr (Calls.clearDialog_incoming _ _)
      (Calls.clearDialog_outgoing _ _)

/-- **What the handlers give back**: of the transactions that are there, an event destroys those, and as
    often, that `handleOps` lists. -/
theorem givesBack_next (hs : c.calls.Typed) (h : c.AttemptInv) (he : machine.enabled c e) :
    c.calls.GivesBack (c.next e).calls (c.handleOps e) := by
  have hturn := turn_next hs h he
  cases hturn with
  | idle hidle hbecomes =>
    refine (keepsTransactions_of_idle he hidle).givesBack fun t hmem => ?_
    rcases (sound_of_idle hs he hidle hbecomes.pairs).used t .destroy hmem id with ⟨-, huse⟩ | ⟨rfl, -⟩
    · cases huse
    · exact le_rfl
  | @opened sip uuid nta orq t hinvite ht hcharged horq hbecomes =>
    refine (c.keepsTransactions_requestOutsideDialog sip uuid nta).givesBack fun t hmem => ?_
    rw [handleOps_opened hinvite] at hmem
    split_ifs at hmem <;> simp at hmem
  | @forwarded leg sip nta orq hmethod horq hbecomes =>
    refine (keepsTransactions_requestInsideDialog he.2).givesBack fun t hmem => ?_
    rw [handleOps_forwarded hmethod] at hmem
    cases hmem
  | @answered orq sip nta hreached hfinal hretries hbecomes => exact givesBack_inviteResponse hs h hreached hfinal
  | @replaced orq sip nta orqNew t hreached hfinal hretries ht horq hbecomes =>
    exact givesBack_inviteResponse hs h hreached hfinal
  | @settled orq sip hirq hfinal hbecomes => exact givesBack_responseInsideDialog hirq hfinal
  | @cancelled irq hnull hleg hbecomes => exact givesBack_cancel he.2 hnull hleg

end

end Controller

/-- The controller, and what it did with handles. -/
structure Handling where
  controller : Controller
  usage : Usage Transaction

namespace Handling

def next (x : Handling) (e : ControllerEvent) : Handling where
  controller := x.controller.next e
  usage := x.usage.step (x.controller.handleOps e) (x.controller.next e).calls.Holds

def machine : Machine Handling ControllerEvent where
  init := { x | x.controller.Initial ∧ x.usage = ⟨[], fun _ => False, fun _ => False⟩ }
  enabled x e := Controller.machine.enabled x.controller e
  next := next

/-- What holds in every run: `held` is the table, and all handles are below the next one. -/
structure Inv (x : Handling) : Prop where
  typed : x.controller.calls.Typed
  attempts : x.controller.AttemptInv
  held : ∀ t, x.usage.held t ↔ x.controller.calls.Holds t
  entered : ∀ t, x.usage.held t → x.usage.entered t
  entered_lt : ∀ t, x.usage.entered t → t.address < x.controller.calls.next
  trace_lt : ∀ t op, (t, op) ∈ x.usage.trace → t.address < x.controller.calls.next

section

variable {x : Handling} {e : ControllerEvent}

theorem Inv.next (h : x.Inv) (he : machine.enabled x e) (hspares : x.controller.SparesInvite e) : (x.next e).Inv := by
  have htyped := Controller.typed_next h.typed he
  have hle := Controller.next_le h.typed.next_pos he.1
  obtain ⟨gone, new, hsound⟩ := Controller.exists_sound h.typed h.attempts he hspares
  refine ⟨htyped, Controller.attemptInv_next h.typed h.attempts he, fun t => Iff.rfl, fun t ht => .inr ht, ?_, ?_⟩
  -- A handle is below `next`: it was before, or it is in the table now.
  · rintro t (hentered | hheld)
    · exact (h.entered_lt t hentered).trans_le hle
    · exact htyped.holds_lt hheld
  · intro t op hmem
    rcases List.mem_append.1 hmem with hmem | hmem
    · exact (h.trace_lt t op hmem).trans_le hle
    · by_cases hgone : gone t
      · exact (h.typed.holds_lt (hsound.spent t hgone).1).trans_le hle
      · rcases hsound.used t op hmem hgone with ⟨hholds, -⟩ | ⟨rfl, -, hlt⟩
        · exact htyped.holds_lt hholds
        · exact hlt

theorem inv_of_init (hx : x ∈ machine.init) : x.Inv := by
  obtain ⟨hinit, husage⟩ := hx
  refine ⟨hinit.calls ▸ Calls.typed_empty, hinit.attemptInv, fun t => ?_, ?_, ?_, ?_⟩
  · rw [husage, hinit.calls]
    refine ⟨False.elim, fun ht => ?_⟩
    cases t with
    | incoming irq =>
      obtain ⟨orq, hmem⟩ := ht
      exact Bimap.not_mem_empty _ hmem
    | outgoing orq =>
      obtain ⟨-, irq, hmem⟩ := ht
      exact Bimap.not_mem_empty _ hmem
  · rw [husage]
    exact fun t ht => ht.elim
  · rw [husage]
    exact fun t ht => ht.elim
  · rw [husage]
    exact fun t op hmem => absurd hmem List.not_mem_nil

/-- What comes into the table is new. -/
theorem Inv.trace_of_new (h : x.Inv) (he : machine.enabled x e) {t : Transaction} (ht : ¬x.usage.entered t)
    (hholds : (x.controller.next e).calls.Holds t) : opsOn x.usage.trace t = [] := by
  refine opsOn_eq_nil_iff.2 fun op hmem => ?_
  rcases (Controller.turn_next h.typed h.attempts he).holds hholds with hold | hge
  · exact ht (h.entered t ((h.held t).2 hold))
  · exact absurd (h.trace_lt t op hmem) (not_lt.2 hge)

/-- An event that is all right. -/
theorem Inv.permits (h : x.Inv) (he : machine.enabled x e) (hspares : x.controller.SparesInvite e) (t : Transaction) :
    x.usage.Permits (x.controller.handleOps e) (x.controller.next e).calls.Holds t := by
  obtain ⟨gone, new, hsound⟩ := Controller.exists_sound h.typed h.attempts he hspares
  have hfresh : ∀ t, x.controller.calls.next ≤ t.address → ¬x.usage.entered t :=
    fun t hle ht => absurd (h.entered_lt t ht) (not_lt.2 hle)
  refine Usage.permits_of_step h.entered gone new (fun t => ?_) (fun t ht => hfresh t (hsound.fresh t ht))
    (fun t ht => ?_) (fun t op hmem hstays => ?_) t
  · rw [h.held]
    exact hsound.holds_iff t
  · rw [h.held]
    exact hsound.spent t ht
  · refine (hsound.used t op hmem hstays).imp id ?_
    rintro ⟨rfl, hout, -⟩
    exact ⟨hfresh _ le_rfl, hout⟩

/-- A CANCEL that finds its transaction and the A leg destroys the client transaction twice. -/
theorem Inv.not_permits (h : x.Inv) {irq : Irq} (hnull : x.controller.calls.getAssociatedOutgoing irq ≠ .null)
    (hleg : x.controller.calls.legFromIncoming irq ≠ .null)
    (hpairs : (x.controller.next (.ackOrCancel irq .cancel)).calls.transactions =
      x.controller.calls.transactions.eraseRight (x.controller.calls.getAssociatedOutgoing irq)) :
    ¬x.usage.Permits (x.controller.handleOps (.ackOrCancel irq .cancel))
      (x.controller.next (.ackOrCancel irq .cancel)).calls.Holds
      (.outgoing (x.controller.calls.getAssociatedOutgoing irq)) := by
  intro hpermits
  have hpair := Controller.mem_of_getAssociatedOutgoing hnull
  have hholds := Calls.holds_eraseRight hpair hnull hpairs
    (.outgoing (x.controller.calls.getAssociatedOutgoing irq))
  -- It leaves the table, so it would have to be spent by what is done to it.
  have hspent := hpermits.leaves ((h.held _).2 ⟨hnull, irq, hpair⟩) fun hin => (hholds.1 hin).2 (.inr rfl)
  have hops : opsOn (x.controller.handleOps (.ackOrCancel irq .cancel))
      (.outgoing (x.controller.calls.getAssociatedOutgoing irq)) = [.use] ++ [.destroy, .destroy] := by
    rw [Controller.handleOps_cancelled hnull hleg]
    simp [opsOn]
  rw [hops] at hspent
  exact HandleOp.not_spent_of_twice _ hspent

/-- **One event.** -/
theorem linear_next_iff (h : x.Inv) (hlinear : x.usage.Linear) (he : machine.enabled x e) :
    (x.next e).usage.Linear ↔ x.controller.SparesInvite e := by
  refine (Usage.linear_step_iff hlinear h.entered fun t => h.trace_of_new he).trans ⟨fun hpermits => ?_, h.permits he⟩
  have hturn := Controller.turn_next h.typed h.attempts he
  cases hturn with
  | idle hidle hbecomes =>
    cases e with
    | ackOrCancel irq method => exact hidle
    | _ => trivial
  | cancelled hnull hleg hbecomes => exact absurd (hpermits _) (h.not_permits hnull hleg hbecomes.pairs)
  | _ => trivial

/-- **Linear handles**: in a run, every transaction that comes into `m_transactions` is not
    destroyed while it is there, destroyed once when it leaves, and not used after that, exactly
    as long as no CANCEL finds its transaction and the A leg. -/
theorem linear_iff {es : List ControllerEvent} (hrun : machine.IsRun x es) :
    machine.Always (fun x => x.usage.Linear) x es ↔
      machine.Along (fun x e => x.controller.SparesInvite e) x es := by
  refine Machine.always_iff_along (I := Inv) (fun x e h _ he hspares => h.next he hspares)
    (fun x e h hq he => linear_next_iff h hq he)
    (inv_of_init hrun.1) ?_ hrun.2
  obtain ⟨-, husage⟩ := hrun.1
  intro t ht
  rw [husage] at ht
  exact ht.elim

end

/-! ## An example -/

/-- The controller of the example, before its call. -/
def exampleHandling : Handling := ⟨Controller.exampleStart, [], fun _ => False, fun _ => False⟩

/-- A call that is refused uses its handles linearly. -/
theorem linear_exampleRefusal :
    machine.IsRun exampleHandling [Controller.exampleInviteEvent, .inviteResponse ⟨4⟩ { status := 486 } {}] ∧
      machine.Always (fun x => x.usage.Linear) exampleHandling
        [Controller.exampleInviteEvent, .inviteResponse ⟨4⟩ { status := 486 } {}] := by
  have hrun : machine.IsRun exampleHandling
      [Controller.exampleInviteEvent, .inviteResponse ⟨4⟩ { status := 486 } {}] :=
    ⟨⟨Controller.exampleStart_initial, rfl⟩, Controller.exampleInviteEvent_enabled, ⟨⟨_, rfl, rfl, rfl⟩, by decide⟩,
      trivial⟩
  exact ⟨hrun, (linear_iff hrun).2 ⟨trivial, trivial, trivial⟩⟩

/-- A call that is cancelled does not: the transaction `4` is destroyed twice. -/
theorem cancelled_not_linear :
    ¬∀ (x : Handling) (es : List ControllerEvent), machine.IsRun x es →
      machine.Always (fun x => x.usage.Linear) x es := by
  intro h
  obtain ⟨-, -, hlinear⟩ := h exampleHandling [Controller.exampleInviteEvent, .ackOrCancel ⟨1⟩ .cancel]
    ⟨⟨Controller.exampleStart_initial, rfl⟩, Controller.exampleInviteEvent_enabled, ⟨⟨_, rfl, rfl, rfl⟩, by decide⟩,
      trivial⟩
  have hspent := (hlinear (.outgoing ⟨4⟩) (.inl (.inr ⟨by decide, ⟨1⟩, by decide⟩))).2 ?_
  · exact HandleOp.not_spent_of_twice [.use, .use] hspent
  · rintro ⟨-, irq, hmem⟩
    exact List.not_mem_nil hmem

end Handling

end Ssp
