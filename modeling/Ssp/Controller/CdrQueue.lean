import Mathlib.Data.List.Basic
import Ssp.Controller.Refine

/-!
# What the writer finds in its queue

The queue of the writer holds pointers to records that the controller may still change.
It changes a posted record in one place only, where a CANCEL or a BYE reports the end of an
origination call: the record of the call itself is changed and posted again, while the
other callbacks post a copy. If the writer has not come to the record yet, it writes the
end of the call twice and its beginning never.

`Controller.faithful_iff`: the records are written as they were posted exactly in the
runs in which this does not happen.
-/

namespace Ssp

namespace Calls

/-- The address of the record that the dialog of a leg has. -/
def recordOf (s : Calls) (leg : Leg) : Option ℕ := (s.mapDialogInfo leg).bind fun d => d.cdr

end Calls

namespace Controller

/-! ## The property and the condition -/

/-- What was written is what was posted, and what is in the queue stands as it was posted. -/
def Faithful (c : Controller) : Prop :=
  ∀ w ∈ c.cdrWriter, (∀ x ∈ w.queue, c.cdrs.at? x.address = some x.record) ∧
    ∀ r ∈ w.written, r.record = r.posted

/-- The record at an address is not in the queue. -/
def Unqueued (c : Controller) (p : ℕ) : Prop := ∀ w ∈ c.cdrWriter, ∀ x ∈ w.queue, x.address ≠ p

/-- The record that a CANCEL or a BYE changes. -/
def changedCdr (c : Controller) : ControllerEvent → Option ℕ
  | .ackOrCancel irq method =>
    if method ≠ .cancel ∨ c.calls.getAssociatedOutgoing irq = .null ∨
      c.calls.legFromIncoming irq = .null then none
    else c.calls.recordOf (c.calls.legFromIncoming irq)
  | .requestInsideDialog leg sip _ =>
    if sip.method ≠ .bye then none
    else
      match c.calls.getAssociatedDialog leg with
      | none => none
      | some other => if other = .null then none else (c.byeCdr leg other).bind fun r => r.1.cdr
  | _ => none

/-- A record that is changed is not in the queue any more. -/
def Drained (c : Controller) (e : ControllerEvent) : Prop := ∀ p ∈ c.changedCdr e, c.Unqueued p

/-! ## The invariant -/

/-- The records of the attempts are never posted, those of the dialogs are posted as they
    were at the beginning of the call, and no two dialogs have the same one. `F` says whether the
    writer is known to be faithful. -/
structure Books (F : Prop) (c : Controller) : Prop where
  queue_lt : ∀ w ∈ c.cdrWriter, ∀ x ∈ w.queue, x.address < c.cdrs.length
  attempt : ∀ a ∈ c.attempts, c.Unqueued a.cdr ∧
    ∃ r, c.cdrs.at? a.cdr = some r ∧ r.cdrType = .terminationAttempt
  record : ∀ l p, c.calls.recordOf l = some p →
    ∃ r, c.cdrs.at? p = some r ∧ r.cdrType = .originationRequest
  distinct : ∀ l l' p, c.calls.recordOf l = some p → c.calls.recordOf l' = some p → l = l'
  faithful : F → c.Faithful

/-- The dialogs have no other records than before. -/
def Carried (s s' : Calls) : Prop :=
  ∃ source : Leg → Leg, (∀ l p, s'.recordOf l = some p → s.recordOf (source l) = some p) ∧
    ∀ l l', s'.recordOf l ≠ none → s'.recordOf l' ≠ none → source l = source l' → l = l'

section

variable {F : Prop} {c c' : Controller} {s s' s'' : Calls}

theorem Carried.of_sub (h : ∀ l p, s'.recordOf l = some p → s.recordOf l = some p) : Carried s s' :=
  ⟨id, h, fun _ _ _ _ heq => heq⟩

theorem Carried.of_eq (h : s'.mapDialogInfo = s.mapDialogInfo) : Carried s s' := by
  refine .of_sub fun l p hp => ?_
  rwa [Calls.recordOf, h] at hp

theorem Carried.trans (h : Carried s s') (h' : Carried s' s'') : Carried s s'' := by
  obtain ⟨f, hf, hinj⟩ := h
  obtain ⟨g, hg, hinj'⟩ := h'
  refine ⟨f ∘ g, fun l p hp => hf _ p (hg l p hp), fun l l' hl hl' heq => hinj' l l' hl hl' ?_⟩
  obtain ⟨p, hp⟩ := Option.ne_none_iff_exists'.1 hl
  obtain ⟨p', hp'⟩ := Option.ne_none_iff_exists'.1 hl'
  refine hinj _ _ ?_ ?_ heq
  · rw [hg l p hp]
    exact Option.some_ne_none _
  · rw [hg l' p' hp']
    exact Option.some_ne_none _

/-- Changes that have nothing to do with the records. -/
theorem Books.congr (h : Books F c) (hcdrs : c'.cdrs = c.cdrs) (hwriter : c'.cdrWriter = c.cdrWriter)
    (hattempts : ∀ a' ∈ c'.attempts, ∃ a ∈ c.attempts, a.cdr = a'.cdr)
    (hcalls : Carried c.calls c'.calls) : Books F c' := by
  obtain ⟨source, hsource, hinj⟩ := hcalls
  have hunqueued : c'.Unqueued = c.Unqueued := by
    funext p
    rw [Unqueued, Unqueued, hwriter]
  refine ⟨?_, ?_, ?_, ?_, ?_⟩
  · rw [hwriter, hcdrs]
    exact h.queue_lt
  · intro a' ha'
    obtain ⟨a, ha, heq⟩ := hattempts a' ha'
    rw [hunqueued, hcdrs, ← heq]
    exact h.attempt a ha
  · intro l p hp
    rw [hcdrs]
    exact h.record _ p (hsource l p hp)
  · intro l l' p hp hp'
    refine hinj l l' ?_ ?_ (h.distinct _ _ p (hsource l p hp) (hsource l' p hp'))
    · rw [hp]
      exact Option.some_ne_none _
    · rw [hp']
      exact Option.some_ne_none _
  · intro hF
    rw [Faithful, hwriter, hcdrs]
    exact h.faithful hF

theorem Books.withCalls (h : Books F c) (hs : Carried c.calls s) : Books F (c.withCalls s) :=
  h.congr rfl rfl (fun a' ha' => ⟨a', ha', rfl⟩) hs

theorem Books.of_eq (h : Books F c) (hcdrs : c'.cdrs = c.cdrs) (hwriter : c'.cdrWriter = c.cdrWriter)
    (hattempts : c'.attempts = c.attempts) (hinfo : c'.calls.mapDialogInfo = c.calls.mapDialogInfo) :
    Books F c' :=
  h.congr hcdrs hwriter (fun a' ha' => ⟨a', hattempts ▸ ha', rfl⟩) (.of_eq hinfo)

/-! ## Operations on records -/

/-- A record of type `T` that nothing has the address of yet. -/
structure Draft (c : Controller) (p : ℕ) (T : CdrEvent) : Prop where
  attempts : ∀ a ∈ c.attempts, a.cdr ≠ p
  dialogs : ∀ l, c.calls.recordOf l ≠ some p
  queue : c.Unqueued p
  type : ∃ r, c.cdrs.at? p = some r ∧ r.cdrType = T

variable {p : ℕ} {T : CdrEvent}

theorem Draft.congr (h : c.Draft p T) (hcdrs : c'.cdrs = c.cdrs) (hwriter : c'.cdrWriter = c.cdrWriter)
    (hattempts : ∀ a' ∈ c'.attempts, ∃ a ∈ c.attempts, a.cdr = a'.cdr)
    (hcalls : Carried c.calls c'.calls) : c'.Draft p T := by
  obtain ⟨source, hsource, -⟩ := hcalls
  refine ⟨?_, fun l hl => h.dialogs _ (hsource l p hl), ?_, ?_⟩
  · intro a' ha'
    obtain ⟨a, ha, heq⟩ := hattempts a' ha'
    rw [← heq]
    exact h.attempts a ha
  · rw [Unqueued, hwriter]
    exact h.queue
  · rw [hcdrs]
    exact h.type

theorem Draft.of_eq (h : c.Draft p T) (hcdrs : c'.cdrs = c.cdrs) (hwriter : c'.cdrWriter = c.cdrWriter)
    (hattempts : c'.attempts = c.attempts) (hinfo : c'.calls.mapDialogInfo = c.calls.mapDialogInfo) :
    c'.Draft p T :=
  h.congr hcdrs hwriter (fun a' ha' => ⟨a', hattempts ▸ ha', rfl⟩) (.of_eq hinfo)

theorem Books.newCdr (h : Books F c) (cdr : CdrInfo) :
    Books F (c.newCdr cdr).2 ∧ (c.newCdr cdr).2.Draft (c.newCdr cdr).1 cdr.cdrType := by
  have hlength : (c.newCdr cdr).2.cdrs.length = c.cdrs.length + 1 := List.length_append
  refine ⟨⟨?_, ?_, ?_, h.distinct, ?_⟩, ⟨?_, ?_, ?_, cdr, c.cdrs.at?_alloc_self cdr, rfl⟩⟩
  · intro w hw x hx
    have := h.queue_lt w hw x hx
    omega
  · intro a ha
    obtain ⟨hunqueued, r, hr, htype⟩ := h.attempt a ha
    exact ⟨hunqueued, r, CdrHeap.at?_alloc_of_some hr cdr, htype⟩
  · intro l q hq
    obtain ⟨r, hr, htype⟩ := h.record l q hq
    exact ⟨r, CdrHeap.at?_alloc_of_some hr cdr, htype⟩
  · intro hF w hw
    obtain ⟨hqueue, hwritten⟩ := h.faithful hF w hw
    exact ⟨fun x hx => CdrHeap.at?_alloc_of_some (hqueue x hx) cdr, hwritten⟩
  · intro a ha heq
    obtain ⟨-, r, hr, -⟩ := h.attempt a ha
    exact absurd (CdrHeap.lt_of_at? hr) (by rw [heq]; exact lt_irrefl _)
  · intro l hl
    obtain ⟨r, hr, -⟩ := h.record l _ hl
    exact absurd (CdrHeap.lt_of_at? hr) (lt_irrefl _)
  · intro w hw x hx heq
    exact absurd (h.queue_lt w hw x hx) (by rw [heq]; exact lt_irrefl _)

/-- A change of a record that is not in the queue, if it is a draft or keeps its type. -/
theorem Books.setCdr (h : Books F c) {f : CdrInfo → CdrInfo} (hqueue : c.Unqueued p)
    (hf : (∀ r, (f r).cdrType = r.cdrType) ∨ c.Draft p T) : Books F (c.setCdr p f) := by
  have hat : ∀ q r T', c.cdrs.at? q = some r → r.cdrType = T' →
      ((∀ r, (f r).cdrType = r.cdrType) ∨ q ≠ p) →
      ∃ r', (c.setCdr p f).cdrs.at? q = some r' ∧ r'.cdrType = T' := by
    intro q r T' hr hT hq
    by_cases heq : q = p
    · subst heq
      refine ⟨f r, ?_, ?_⟩
      · change (c.cdrs.update q f).at? q = _
        rw [CdrHeap.at?_update_self, hr]
        rfl
      · rw [hq.resolve_right (not_not.2 rfl), hT]
    · exact ⟨r, (CdrHeap.at?_update_of_ne heq f).trans hr, hT⟩
  refine ⟨?_, ?_, ?_, h.distinct, ?_⟩
  · intro w hw x hx
    rw [Controller.setCdr, CdrHeap.length_update]
    exact h.queue_lt w hw x hx
  · intro a ha
    obtain ⟨hunqueued, r, hr, htype⟩ := h.attempt a ha
    exact ⟨hunqueued, hat _ r _ hr htype (hf.imp_right fun hd => hd.attempts a ha)⟩
  · intro l q hq
    obtain ⟨r, hr, htype⟩ := h.record l q hq
    refine hat q r _ hr htype (hf.imp_right fun hd heq => ?_)
    exact hd.dialogs l (heq ▸ hq)
  · intro hF w hw
    obtain ⟨hfaithful, hwritten⟩ := h.faithful hF w hw
    exact ⟨fun x hx => (CdrHeap.at?_update_of_ne (hqueue w hw x hx) f).trans (hfaithful x hx), hwritten⟩

theorem Draft.setCdr (h : c.Draft p T) {f : CdrInfo → CdrInfo} {T' : CdrEvent}
    (hf : ∀ r, r.cdrType = T → (f r).cdrType = T') : (c.setCdr p f).Draft p T' := by
  obtain ⟨r, hr, htype⟩ := h.type
  refine ⟨h.attempts, h.dialogs, h.queue, f r, ?_, hf r htype⟩
  change (c.cdrs.update p f).at? p = _
  rw [CdrHeap.at?_update_self, hr]
  rfl

/-- The queue after `postCdr`. -/
theorem mem_postCdr {w : CdrWriter} {h : CdrHeap} {x : Posted} (hx : x ∈ (w.postCdr h p).queue) :
    x ∈ w.queue ∨ x.address = p ∧ h.at? p = some x.record := by
  unfold CdrWriter.postCdr at hx
  split at hx
  · rename_i cdr hcdr
    rcases List.mem_append.1 hx with hx | hx
    · exact .inl hx
    · rw [List.mem_singleton.1 hx]
      exact .inr ⟨rfl, hcdr⟩
  · exact .inl hx

theorem postCdr_written (w : CdrWriter) (h : CdrHeap) : (w.postCdr h p).written = w.written := by
  unfold CdrWriter.postCdr
  split <;> rfl

theorem Books.postCdr (h : Books F c) (hattempts : ∀ a ∈ c.attempts, a.cdr ≠ p) :
    Books F (c.postCdr p) := by
  refine ⟨?_, ?_, h.record, h.distinct, ?_⟩
  · intro w hw x hx
    obtain ⟨w', hw', rfl⟩ := Option.map_eq_some_iff.1 hw
    rcases mem_postCdr hx with hx | ⟨heq, hr⟩
    · exact h.queue_lt w' hw' x hx
    · rw [heq]
      exact CdrHeap.lt_of_at? hr
  · intro a ha
    obtain ⟨hunqueued, htype⟩ := h.attempt a ha
    refine ⟨fun w hw x hx => ?_, htype⟩
    obtain ⟨w', hw', rfl⟩ := Option.map_eq_some_iff.1 hw
    rcases mem_postCdr hx with hx | ⟨heq, -⟩
    · exact hunqueued w' hw' x hx
    · rw [heq]
      exact (hattempts a ha).symm
  · intro hF w hw
    obtain ⟨w', hw', rfl⟩ := Option.map_eq_some_iff.1 hw
    obtain ⟨hqueue, hwritten⟩ := h.faithful hF w' hw'
    refine ⟨fun x hx => ?_, ?_⟩
    · rcases mem_postCdr hx with hx | ⟨heq, hr⟩
      · exact hqueue x hx
      · rw [heq]
        exact hr
    · rw [postCdr_written]
      exact hwritten

/-- A copy of a record is posted. -/
theorem Books.postFinalResponse (h : Books F c) (pCdr : ℕ) (cdrType : CdrEvent) (status : ℤ) :
    Books F (c.postFinalResponse pCdr cdrType status) := by
  unfold Controller.postFinalResponse
  split
  · exact h
  · rename_i cdr _
    obtain ⟨hnew, hdraft⟩ := h.newCdr cdr
    exact (hnew.setCdr hdraft.queue (.inr hdraft)).postCdr hdraft.attempts

/-- The record of an attempt is changed. -/
theorem Books.setCdr_attempt (h : Books F c) {a : TerminationAttempt} (ha : a ∈ c.attempts)
    {f : CdrInfo → CdrInfo} (hf : ∀ r, (f r).cdrType = r.cdrType) : Books F (c.setCdr a.cdr f) :=
  @Books.setCdr F c a.cdr .terminationAttempt h f (h.attempt a ha).1 (.inl hf)

/-- A draft becomes the record of a new attempt. -/
theorem Books.addAttempt (h : Books F c) {t : TerminationAttempt} (ht : c.Draft t.cdr .terminationAttempt) :
    Books F { c with attempts := c.attempts ++ [t] } := by
  refine ⟨h.queue_lt, ?_, h.record, h.distinct, h.faithful⟩
  intro a ha
  rcases List.mem_append.1 ha with ha | ha
  · exact h.attempt a ha
  · rw [List.mem_singleton.1 ha]
    exact ⟨ht.queue, ht.type⟩

/-- A draft becomes the record of a new dialog. -/
theorem Books.addRecord (h : Books F c) (hd : c.Draft p .originationRequest) (leg : Leg)
    (hs : ∀ l q, s.recordOf l = some q → c.calls.recordOf l = some q ∨ l = leg ∧ q = p) :
    Books F (c.withCalls s) := by
  refine ⟨h.queue_lt, h.attempt, ?_, ?_, h.faithful⟩
  · intro l q hq
    rcases hs l q hq with hq | ⟨-, rfl⟩
    · exact h.record l q hq
    · exact hd.type
  · intro l l' q hq hq'
    rcases hs l q hq with hq | ⟨rfl, rfl⟩ <;> rcases hs l' q hq' with hq' | ⟨rfl, heq⟩
    · exact h.distinct l l' q hq hq'
    · exact absurd (heq ▸ hq) (hd.dialogs l)
    · exact absurd hq' (hd.dialogs l')
    · rfl

/-! ## The records of the dialogs -/

theorem recordOf_eraseDialogInfo {leg l : Leg} {q : ℕ} (h : (s.eraseDialogInfo leg).recordOf l = some q) :
    s.recordOf l = some q ∧ l ≠ leg := by
  change (Function.update s.mapDialogInfo leg none l).bind _ = _ at h
  by_cases heq : l = leg
  · rw [heq, Function.update_self] at h
    cases h
  · rw [Function.update_of_ne heq] at h
    exact ⟨h, heq⟩

theorem destroyLeg_recordOf (s : Calls) (leg : Leg) : (s.destroyLeg leg).recordOf = s.recordOf := by
  obtain ⟨_, _, heq⟩ := s.destroyLeg_frame leg
  rw [heq]
  rfl

/-- `clearDialog` takes the records of both sides away. -/
theorem recordOf_clearDialog {leg l : Leg} {q : ℕ} (h : (s.clearDialog leg).recordOf l = some q) :
    s.recordOf l = some q ∧ ∀ other, s.getAssociatedDialog leg = some other →
      l ≠ leg ∧ (other ≠ .null → l ≠ other) := by
  unfold Calls.clearDialog at h
  cases hother : s.getAssociatedDialog leg with
  | none =>
    rw [hother] at h
    refine ⟨h, fun other hsome => ?_⟩
    cases hsome
  | some other =>
    rw [hother] at h
    dsimp only at h
    -- The erasures for `leg` itself.
    have hleg : (((s.destroyLeg leg).eraseDialog leg).eraseDialogInfo leg).recordOf l = some q →
        s.recordOf l = some q ∧ l ≠ leg := by
      intro h
      obtain ⟨h, hne⟩ := recordOf_eraseDialogInfo h
      refine ⟨?_, hne⟩
      rw [← destroyLeg_recordOf s leg]
      exact h
    split_ifs at h with hnull
    · obtain ⟨h, hne⟩ := hleg h
      refine ⟨h, fun other' heq => ⟨hne, fun hnull' => ?_⟩⟩
      rw [← Option.some.inj heq] at hnull'
      exact absurd hnull hnull'
    · obtain ⟨h, hne'⟩ := recordOf_eraseDialogInfo h
      rw [destroyLeg_recordOf] at h
      obtain ⟨h, hne⟩ := hleg h
      refine ⟨h, fun other' heq => ⟨hne, fun _ => ?_⟩⟩
      rw [← Option.some.inj heq]
      exact hne'

theorem Carried.clearDialog (s : Calls) (leg : Leg) : Carried s (s.clearDialog leg) :=
  .of_sub fun _ _ h => (recordOf_clearDialog h).1

theorem Carried.updateDialogInfo (s : Calls) (leg : Leg) {f : SipDialogInfo → SipDialogInfo}
    (hf : ∀ d, (f d).cdr = d.cdr) : Carried s (s.updateDialogInfo leg f) := by
  refine .of_sub fun l q hq => ?_
  change (Function.update s.mapDialogInfo leg _ l).bind _ = _ at hq
  by_cases heq : l = leg
  · rw [heq, Function.update_self] at hq
    rw [heq, ← hq, Calls.recordOf]
    cases s.mapDialogInfo leg with
    | none => rfl
    | some d => exact (hf d).symm
  · rwa [Function.update_of_ne heq] at hq

/-- A dialog comes in, with its record if it has one. -/
theorem recordOf_insertDialogInfo (leg : Leg) {l : Leg} {d : SipDialogInfo} {q : ℕ}
    (h : (s.insertDialogInfo leg d).recordOf l = some q) :
    s.recordOf l = some q ∨ l = leg ∧ d.cdr = some q ∧ s.mapDialogInfo leg = none := by
  change (Calls.insertNew s.mapDialogInfo leg d l).bind _ = _ at h
  unfold Calls.insertNew at h
  split_ifs at h with hsome
  · exact .inl h
  · by_cases heq : l = leg
    · rw [heq, Function.update_self] at h
      exact .inr ⟨heq, h, by simpa using hsome⟩
    · rw [Function.update_of_ne heq] at h
      exact .inl h

/-- `updateDialog` moves a record along with its dialog. -/
theorem Carried.moveDialog (s : Calls) (leg newLeg : Leg) : Carried s (s.moveDialog leg newLeg) := by
  unfold Calls.moveDialog
  cases s.getAssociatedDialog leg with
  | none => exact .of_eq rfl
  | some aLeg =>
    dsimp only
    generalize hu : (Calls.addDialogs { s with dialogs := s.dialogs.eraseRight leg } aLeg
      newLeg).destroyLeg leg = u
    have hrecord : u.recordOf = s.recordOf := by
      rw [← hu, destroyLeg_recordOf]
      rfl
    have hu' : Carried s u := .of_sub fun l q hq => hrecord ▸ hq
    cases hinfo : u.mapDialogInfo leg with
    | none => exact hu'.trans (.of_eq rfl)
    | some d =>
      refine hu'.trans ⟨fun l => if l = newLeg ∧ u.mapDialogInfo newLeg = none then leg else l, ?_, ?_⟩
      · intro l q hq
        obtain ⟨hq, -⟩ := recordOf_eraseDialogInfo hq
        dsimp only
        rcases recordOf_insertDialogInfo newLeg hq with hold | ⟨rfl, hd, hnone⟩
        · rw [if_neg]
          · exact hold
          · rintro ⟨rfl, hnone⟩
            rw [Calls.recordOf, hnone] at hold
            cases hold
        · rw [if_pos ⟨rfl, hnone⟩, Calls.recordOf, hinfo]
          exact hd
      · -- `leg` itself has no record any more, so nothing else comes from it.
        intro l l' hl hl' heq
        obtain ⟨q, hq⟩ := Option.ne_none_iff_exists'.1 hl
        obtain ⟨q', hq'⟩ := Option.ne_none_iff_exists'.1 hl'
        have hne := (recordOf_eraseDialogInfo hq).2
        have hne' := (recordOf_eraseDialogInfo hq').2
        dsimp only at heq
        split_ifs at heq with h1 h2 h2
        · exact h1.1.trans h2.1.symm
        · exact absurd heq.symm hne'
        · exact absurd heq hne
        · exact heq

theorem Carried.updateDialog (s : Calls) (leg newLeg : Leg) : Carried s (s.updateDialog leg newLeg) := by
  unfold Calls.updateDialog
  split_ifs
  · exact Carried.trans (.of_eq rfl) (.moveDialog _ leg newLeg)
  · exact .moveDialog s leg newLeg

/-! ## New requests -/

theorem createLeg_info (s : Calls) (granted : Bool) :
    (s.createLeg granted).2.mapDialogInfo = s.mapDialogInfo := by
  cases granted <;> rfl

theorem createOutgoing_info (s : Calls) (granted : Bool) (irq : Irq) (leg : Leg) (callback : Callback)
    (request : OutgoingRequest) :
    (s.createOutgoing granted irq leg callback request).2.mapDialogInfo = s.mapDialogInfo := by
  cases granted <;> rfl

theorem destroyLeg_info (s : Calls) (leg : Leg) : (s.destroyLeg leg).mapDialogInfo = s.mapDialogInfo := by
  obtain ⟨_, _, heq⟩ := s.destroyLeg_frame leg
  rw [heq]

theorem createInvite_info (s : Calls) (irq : Irq) (bLegGranted orqGranted : Bool)
    (request : OutgoingRequest) :
    (s.createInvite irq bLegGranted orqGranted request).1.mapDialogInfo = s.mapDialogInfo := by
  unfold Calls.createInvite
  dsimp only
  split_ifs
  · exact createLeg_info s bLegGranted
  · rw [destroyLeg_info, createOutgoing_info, createLeg_info]
  · rw [createOutgoing_info, createLeg_info]

theorem createOrigination_info (s : Calls) (irq : Irq) (nta : Creations) (request : OutgoingRequest) :
    (createOrigination s irq nta request).1.mapDialogInfo = s.mapDialogInfo := by
  unfold createOrigination
  dsimp only
  split_ifs
  · exact createLeg_info s nta.aLeg
  · have hinvite := createInvite_info ((s.createLeg nta.aLeg).2.bindIncoming irq (s.createLeg nta.aLeg).1)
      irq nta.bLeg nta.orq request
    have hbind : ((s.createLeg nta.aLeg).2.bindIncoming irq (s.createLeg nta.aLeg).1).mapDialogInfo =
      s.mapDialogInfo := createLeg_info s nta.aLeg
    rw [hbind] at hinvite
    split
    · rename_i heq
      rw [heq] at hinvite
      exact (destroyLeg_info _ _).trans hinvite
    · rename_i heq
      rw [heq] at hinvite
      exact hinvite

theorem legRecv_info (s : Calls) (irq : Irq) (method : Method) (status : ℤ) :
    (s.legRecv irq method status).mapDialogInfo = s.mapDialogInfo := by
  unfold Calls.legRecv
  dsimp only
  split_ifs <;> rfl

theorem Books.require (h : Books F c) (a : Absent) (there : Bool) : Books F (c.require a there) := by
  unfold Controller.require
  split_ifs
  · exact h
  · exact h.of_eq rfl rfl rfl rfl

theorem Books.originationCdr (h : Books F c) (sip : Request) (carrier uuid : Bytes) :
    Books F (c.originationCdr sip carrier uuid).2 ∧
      (c.originationCdr sip carrier uuid).2.Draft (c.originationCdr sip carrier uuid).1
        .originationRequest := by
  obtain ⟨hnew, hdraft⟩ := h.newCdr { cdrType := .originationRequest }
  exact ⟨hnew.setCdr hdraft.queue (.inr hdraft), hdraft.setCdr fun _ _ => rfl⟩

/-- A call that is refused is reported in its own record, which nothing else has the address of. -/
theorem Books.reject (h : Books F c) (hd : c.Draft p T) (status : ℤ) (cause : ReleaseCause) :
    Books F (c.reject p status cause).1 :=
  Books.postCdr (h.setCdr hd.queue (.inr hd)) hd.attempts

theorem Books.originate (h : Books F c) (hd : c.Draft p .originationRequest) (irq : Irq) (sip : Request)
    (carrier uuid : Bytes) (server : FsInstance) (nta : Creations) :
    Books F (c.originate irq sip carrier uuid p server nta).1 := by
  unfold Controller.originate
  have hinfo := createOrigination_info c.calls irq nta (c.originationInvite sip carrier uuid server)
  rcases hcreate : createOrigination c.calls irq nta (c.originationInvite sip carrier uuid server) with
    ⟨s, _ | ⟨aLeg, orq, bLeg⟩⟩ <;> rw [hcreate] at hinfo
  · exact Books.reject (h.withCalls (.of_eq hinfo))
      (hd.of_eq rfl rfl rfl hinfo) 503 .callRejectedDueToSystemError
  · have hd' : (c.withCalls s).Draft p .originationRequest :=
      hd.of_eq rfl rfl rfl hinfo
    have hset := (h.withCalls (.of_eq hinfo)).setCdr (f := fun cdr =>
      { cdr with blegCallId := nta.callId, fsAddress := server.strSipAddress }) hd'.queue (.inr hd')
    refine Books.postCdr (hset.addRecord (hd'.setCdr fun _ htype => htype) aLeg ?_) hd'.attempts
    intro l q hq
    refine (recordOf_insertDialogInfo aLeg (s := s) hq).imp_right ?_
    rintro ⟨rfl, hcdr, -⟩
    exact ⟨rfl, (Option.some.inj hcdr).symm⟩

theorem Books.processOriginationRequest (h : Books F c) (irq : Irq) (sip : Request) (carrier uuid : Bytes)
    (nta : Creations) : Books F (c.processOriginationRequest irq sip carrier uuid nta).1 := by
  obtain ⟨hcdr, hdraft⟩ := h.originationCdr sip carrier uuid
  have hselect : Books F (c.originationCdr sip carrier uuid).2.selectServer.1 :=
    hcdr.of_eq rfl rfl rfl rfl
  have hdraft' : (c.originationCdr sip carrier uuid).2.selectServer.1.Draft
      (c.originationCdr sip carrier uuid).1 .originationRequest :=
    hdraft.of_eq rfl rfl rfl rfl
  unfold Controller.processOriginationRequest
  dsimp only
  rcases hserver : (c.originationCdr sip carrier uuid).2.selectServer with ⟨c', _ | server⟩ <;>
    rw [hserver] at hselect hdraft'
  · exact hselect.reject hdraft' 486 .callRejectedDueToSystemError
  · exact hselect.originate hdraft' irq sip carrier uuid server nta

theorem Books.generateTerminationRequest (h : Books F c) (t : ℕ) (irq : Irq) (nta : Creations) :
    Books F (c.generateTerminationRequest t irq nta).1 := by
  unfold Controller.generateTerminationRequest
  cases ha : c.attempts[t]? with
  | none => exact h
  | some a =>
    have hinfo := createInvite_info c.calls irq nta.bLeg (orqGranted nta a) (terminationInvite a)
    dsimp only
    rcases hcreate : c.calls.createInvite irq nta.bLeg (orqGranted nta a) (terminationInvite a) with
      ⟨s, _ | ⟨orq, bLeg⟩⟩ <;> rw [hcreate] at hinfo
    · exact h.withCalls (.of_eq hinfo)
    · have hset := Books.setCdr_attempt (h.withCalls (s := s) (.of_eq hinfo)) (List.mem_of_getElem? ha)
        (f := fun cdr => { cdr with dlegCallId := nta.callId }) fun _ => rfl
      exact hset.of_eq rfl rfl rfl rfl

theorem Books.newAttempt (h : Books F c) (sip : Request) (route : Route) :
    Books F (c.newAttempt sip route).2 := by
  obtain ⟨hnew, hdraft⟩ := h.newCdr { cdrType := .terminationAttempt }
  unfold Controller.newAttempt
  exact (hnew.setCdr hdraft.queue (.inr hdraft)).addAttempt (hdraft.setCdr fun _ _ => rfl)

theorem Books.terminateOn (h : Books F c) (irq : Irq) (aLeg : Leg) (sip : Request) (t : ℕ)
    (nta : Creations) : Books F (c.terminateOn irq aLeg sip t nta).1 := by
  unfold Controller.terminateOn
  have hgen := h.generateTerminationRequest t irq nta
  rcases hrequest : c.generateTerminationRequest t irq nta with ⟨c', _ | ⟨orq, bLeg⟩⟩ <;>
    rw [hrequest] at hgen
  · exact hgen.withCalls (.of_eq (destroyLeg_info _ aLeg))
  · -- The dialog of a termination call has no record.
    refine (hgen.require .requestPayload sip.sipPayload.isSome).withCalls (.of_sub fun l q hq => ?_)
    refine (recordOf_insertDialogInfo bLeg hq).resolve_right ?_
    rintro ⟨-, hcdr, -⟩
    cases hcdr

theorem Books.processTerminationRequest (h : Books F c) (irq : Irq) (sip : Request) (nta : Creations) :
    Books F (c.processTerminationRequest irq sip nta).1 := by
  unfold Controller.processTerminationRequest
  rcases c.firstRoute sip with _ | ⟨route, config⟩
  · exact h
  · have hconfig : Books F { c with config := config } :=
      h.of_eq rfl rfl rfl rfl
    refine Books.terminateOn (Books.withCalls (hconfig.newAttempt sip route) (.of_eq ?_)) irq _ sip _ nta
    exact createLeg_info _ nta.aLeg

theorem Books.countDown {r : Controller × ℤ} (h : Books F r.1) : Books F (countDown r).1 := by
  unfold Controller.countDown
  dsimp only
  split_ifs
  · exact h.of_eq rfl rfl rfl rfl
  · exact h

theorem Books.processInvite (h : Books F c) (irq : Irq) (sip : Request) (uuid : Bytes) (nta : Creations) :
    Books F (c.processInvite irq sip uuid nta).1 := by
  have h' := h.require .requestContactHost sip.contactHost?.isSome
  have hreject : ∀ carrier status cause, Books F
      (((c.require .requestContactHost sip.contactHost?.isSome).originationCdr sip carrier uuid).2.reject
        ((c.require .requestContactHost sip.contactHost?.isSome).originationCdr sip carrier uuid).1
        status cause).1 := by
    intro carrier status cause
    obtain ⟨hcdr, hdraft⟩ := h'.originationCdr sip carrier uuid
    exact hcdr.reject hdraft status cause
  unfold Controller.processInvite
  dsimp only
  rcases determineCallType _ _ with ⟨_ | _ | _, carrier⟩
  · dsimp only
    split_ifs
    · exact hreject carrier 503 _
    · exact (h'.processOriginationRequest irq sip carrier uuid nta).countDown
  · exact (h'.processTerminationRequest irq sip nta).countDown
  · exact hreject carrier 403 _

theorem Books.requestOutsideDialog (h : Books F c) (sip : Request) (uuid : Bytes) (nta : Creations) :
    Books F (c.requestOutsideDialog sip uuid nta) := by
  unfold Controller.requestOutsideDialog
  dsimp only
  refine Books.withCalls ?_ (.of_eq (legRecv_info _ _ _ _))
  have h' : Books F (c.withCalls (c.calls.receive .null)) := h.withCalls (.of_eq rfl)
  unfold processRequestOutsideDialog
  split
  · exact h'
  · split
    · split
      · exact h'.withCalls (.of_eq rfl)
      · dsimp only
        split <;> exact h'.require .requestContactHost sip.contactHost?.isSome
    · exact h'.withCalls (.of_eq rfl)
    · exact h'.processInvite _ sip uuid nta
    · exact h'
    · exact h'
    · exact h'

/-! ## Responses -/

theorem Books.retry (h : Books F c) (t : ℕ) (irq : Irq) (orq : Orq) (leg : Leg) (nta : Creations) :
    Books F (c.retry t irq orq leg nta).controller := by
  unfold Controller.retry
  have hgen := h.generateTerminationRequest t irq nta
  rcases hrequest : c.generateTerminationRequest t irq nta with ⟨c', _ | ⟨orqNew, bLegNew⟩⟩ <;>
    rw [hrequest] at hgen
  · exact hgen
  · exact hgen.withCalls (Carried.trans (.of_eq rfl) (.updateDialog _ leg bLegNew))

theorem Books.redirect (h : Books F c) (t : ℕ) (url : Bytes) : Books F (c.redirect t url) := by
  refine h.congr rfl rfl (fun a' ha' => ?_) (.of_eq rfl)
  obtain ⟨i, hi⟩ := List.mem_iff_getElem?.1 ha'
  change (c.attempts.modify t _)[i]? = some a' at hi
  rw [List.getElem?_modify] at hi
  obtain ⟨a, ha, heq⟩ := Option.map_eq_some_iff.1 hi
  refine ⟨a, List.mem_of_getElem? ha, ?_⟩
  rw [← heq]
  split_ifs <;> rfl

theorem Books.crankback (h : Books F c) (t : ℕ) (url carrier sipTrunk header : Bytes) :
    Books F (c.crankback t url carrier sipTrunk header) := by
  unfold Controller.crankback
  split
  · exact h
  · rename_i a ha
    have hmem := List.mem_of_getElem? ha
    refine @Books.setCdr F _ a.cdr .terminationAttempt ?_ _ (h.attempt a hmem).1 (.inl fun _ => rfl)
    refine h.congr rfl rfl (fun a' ha' => ?_) (.of_eq rfl)
    rcases List.mem_or_eq_of_mem_set ha' with ha' | rfl
    · exact ⟨a', ha', rfl⟩
    · exact ⟨a, hmem, rfl⟩

theorem Books.processCrankback (h : Books F c) (t : ℕ) (a : TerminationAttempt) (irq : Irq) (orq : Orq)
    (leg : Leg) (sip : Response) (nta : Creations) :
    Books F (c.processCrankback t a irq orq leg sip nta).controller := by
  unfold Controller.processCrankback
  split_ifs
  · rcases c.config.getTerminationRouteForAltCarrier a.carrier with _ | ⟨route, config⟩
    · exact h
    · have hconfig : Books F { c with config := config } :=
        h.of_eq rfl rfl rfl rfl
      refine Books.retry (Books.crankback ?_ _ _ _ _ _) t irq orq leg nta
      exact hconfig.postFinalResponse a.cdr .terminationAttempt sip.status
  · exact h

theorem Books.startSessionTimer (h : Books F c) (aLeg : Leg) (d : SipDialogInfo) (nta : Creations) :
    Books F (c.startSessionTimer aLeg d nta) := by
  unfold Controller.startSessionTimer
  split_ifs
  · exact h.withCalls (.updateDialogInfo _ aLeg fun _ => rfl)
  · exact h

theorem Books.processAnswer (h : Books F c) (aLeg leg : Leg) (pDialog : Option SipDialogInfo)
    (sip : Response) (nta : Creations) :
    Books F (c.processAnswer aLeg leg pDialog sip nta).controller := by
  have hack : Books F (Controller.withCalls (c.require .responseContact sip.sipContact.isSome)
      ((c.require .responseContact sip.sipContact.isSome).calls.record (.sent leg .ack))) :=
    (h.require .responseContact sip.sipContact.isSome).withCalls (.of_eq rfl)
  unfold Controller.processAnswer
  cases pDialog with
  | none => exact hack
  | some d =>
    refine Books.startSessionTimer ?_ aLeg d nta
    exact (hack.require .responsePayload _).withCalls (.updateDialogInfo _ aLeg fun _ => rfl)

theorem Books.processFinalResponse (h : Books F c) (irq : Irq) (orq : Orq) (aLeg leg : Leg)
    (t : Option (ℕ × TerminationAttempt)) (pDialog : Option SipDialogInfo) (sip : Response)
    (nta : Creations) :
    Books F (c.processFinalResponse irq orq aLeg leg t pDialog sip nta).controller := by
  unfold Controller.processFinalResponse
  split
  · exact h.processAnswer aLeg leg pDialog sip nta
  · split
    · exact h
    · split_ifs
      · exact Books.retry (Books.redirect (h.require _ _) _ _) _ irq orq leg nta
      · exact h.processCrankback _ _ irq orq leg sip nta
      · exact h

theorem Books.reportFinalResponse (h : Books F c) (pCdr : Option ℕ) (bT bP : Bool) (status : ℤ) :
    Books F (c.reportFinalResponse pCdr bT bP status) := by
  unfold Controller.reportFinalResponse
  cases pCdr with
  | none => exact h
  | some pCdr =>
    dsimp only
    split_ifs
    · exact h.postFinalResponse pCdr .originationFinalResponse status
    · exact h.postFinalResponse pCdr .terminationAttempt status
    · exact h

theorem Books.conclude {d : Decision} (h : Books F d.controller) (irq : Irq) (orq : Orq) (leg : Leg)
    (t pCdr : Option ℕ) (sip : Response) : Books F (d.conclude irq orq leg t pCdr sip) := by
  unfold Decision.conclude
  refine Books.reportFinalResponse ?_ _ _ _ _
  have hproxy : Books F (if d.bProxyResponse then
      d.controller.proxyResponse irq orq t d.sessionExpires sip else d.controller) := by
    split_ifs
    · refine h.withCalls (.of_eq ?_)
      split_ifs <;> rfl
    · exact h
  generalize (if d.bProxyResponse then
    d.controller.proxyResponse irq orq t d.sessionExpires sip else d.controller) = c at hproxy
  have hclear : Books F (if d.bClearTransaction then c.withCalls (c.calls.clearTransaction orq) else c) := by
    split_ifs
    · exact hproxy.withCalls (.of_eq rfl)
    · exact hproxy
  generalize (if d.bClearTransaction then c.withCalls (c.calls.clearTransaction orq) else c) = c' at hclear
  split_ifs
  · exact hclear.withCalls (.clearDialog _ leg)
  · exact hclear

theorem Books.processInviteResponse (h : Books F c) (irq : Irq) (orq : Orq) (aLeg leg : Leg)
    (sip : Response) (nta : Creations) :
    Books F (c.processInviteResponse irq orq aLeg leg sip nta) := by
  unfold Controller.processInviteResponse
  refine Books.conclude ?_ irq orq leg _ _ sip
  have hcheck : ∀ holds, Books F (c.check .inviteResponseNoCdr holds) := by
    intro holds
    obtain ⟨asserts, heq⟩ := check_frame c .inviteResponseNoCdr holds
    rw [heq]
    exact h.of_eq rfl rfl rfl rfl
  split
  · exact hcheck _
  · split
    · refine Books.processFinalResponse ?_ irq orq aLeg leg _ _ sip nta
      obtain ⟨asserts, stats, heq⟩ := reportFailure_frame (c.check .inviteResponseNoCdr _) _ sip.status
      rw [heq]
      exact (hcheck _).of_eq rfl rfl rfl rfl
    · exact hcheck _

theorem Books.processInviteResponseInsideDialog (h : Books F c) (orq : Orq) (sip : Response)
    (nta : Creations) : Books F (c.processInviteResponseInsideDialog orq sip nta) := by
  unfold Controller.processInviteResponseInsideDialog
  dsimp only
  split_ifs
  · exact h.withCalls (.of_eq rfl)
  · exact h.withCalls (.of_eq rfl)
  · exact h.withCalls (.of_eq rfl)
  · exact h.processInviteResponse _ orq _ _ sip nta

theorem Books.acknowledge (h : Books F c) (orq : Orq) (sip : Response) :
    Books F (c.acknowledge orq sip) := by
  unfold Controller.acknowledge
  dsimp only
  split_ifs
  · exact h.withCalls (.of_eq rfl)
  · exact (h.require _ _).withCalls (.of_eq rfl)
  · exact h

theorem Books.processResponseInsideDialog (h : Books F c) (orq : Orq) (sip : Response) :
    Books F (c.processResponseInsideDialog orq sip) := by
  have hreply : ∀ irq, Books F (c.withCalls (c.calls.record (.replied irq orq
      { status := sip.status, payload := sip.sipPayload }))) := fun irq => h.withCalls (.of_eq rfl)
  unfold Controller.processResponseInsideDialog
  dsimp only
  split_ifs
  · exact h.withCalls (.of_eq rfl)
  · exact ((hreply _).acknowledge orq sip).withCalls (.of_eq rfl)
  · exact (hreply _).acknowledge orq sip

theorem Books.processSessionRefreshTimer (h : Books F c) (leg : Leg) :
    Books F (c.processSessionRefreshTimer leg) := by
  unfold Controller.processSessionRefreshTimer
  split
  · exact h
  · have hupdate : Carried c.calls (c.calls.updateDialogInfo leg fun d =>
      { d with timerSessionRefresh := none }) := .updateDialogInfo _ leg fun _ => rfl
    dsimp only
    split
    · exact h.withCalls (hupdate.trans (.of_eq rfl))
    · refine h.withCalls (hupdate.trans (Carried.trans (.of_eq ?_) (.clearDialog _ leg)))
      split_ifs <;> rfl

theorem Books.processRetransmittedResponse (h : Books F c) (leg : Leg) (sip : Response) :
    Books F (c.processRetransmittedResponse leg sip) := by
  unfold Controller.processRetransmittedResponse
  split
  · exact (h.require _ _).withCalls (.of_eq rfl)
  · exact h

/-! ## The end of an origination call -/

/-- The record of a dialog is changed and posted, and the dialog is gone. -/
theorem Books.report (h : Books F c) {leg : Leg} (hp : c.calls.recordOf leg = some p)
    (hqueue : F → c.Unqueued p) (f : CdrInfo → CdrInfo)
    (hs : ∀ l q, s.recordOf l = some q → c.calls.recordOf l = some q ∧ l ≠ leg) :
    Books F (((c.setCdr p f).postCdr p).withCalls s) := by
  obtain ⟨r, hr, htype⟩ := h.record leg p hp
  have hattempt : ∀ a ∈ c.attempts, a.cdr ≠ p := by
    rintro a ha rfl
    obtain ⟨-, r', hr', htype'⟩ := h.attempt a ha
    obtain rfl : r' = r := Option.some.inj (hr'.symm.trans hr)
    exact absurd (htype'.symm.trans htype) (by decide)
  refine ⟨?_, ?_, ?_, ?_, ?_⟩
  · intro w hw x hx
    obtain ⟨w', hw', rfl⟩ := Option.map_eq_some_iff.1 hw
    change x.address < (c.cdrs.update p f).length
    rcases mem_postCdr hx with hx | ⟨heq, hx⟩
    · rw [CdrHeap.length_update]
      exact h.queue_lt w' hw' x hx
    · rw [heq]
      exact CdrHeap.lt_of_at? hx
  · intro a ha
    obtain ⟨hunqueued, r', hr', htype'⟩ := h.attempt a ha
    refine ⟨fun w hw x hx => ?_, r', (CdrHeap.at?_update_of_ne (hattempt a ha) f).trans hr', htype'⟩
    obtain ⟨w', hw', rfl⟩ := Option.map_eq_some_iff.1 hw
    rcases mem_postCdr hx with hx | ⟨heq, -⟩
    · exact hunqueued w' hw' x hx
    · rw [heq]
      exact (hattempt a ha).symm
  · intro l q hq
    obtain ⟨hq, hne⟩ := hs l q hq
    obtain ⟨r', hr', htype'⟩ := h.record l q hq
    have hqp : q ≠ p := fun heq => hne (h.distinct l leg p (heq ▸ hq) hp)
    exact ⟨r', (CdrHeap.at?_update_of_ne hqp f).trans hr', htype'⟩
  · exact fun l l' q hq hq' => h.distinct l l' q (hs l q hq).1 (hs l' q hq').1
  · intro hF w hw
    obtain ⟨w', hw', rfl⟩ := Option.map_eq_some_iff.1 hw
    obtain ⟨hfaithful, hwritten⟩ := h.faithful hF w' hw'
    refine ⟨fun x hx => ?_, ?_⟩
    · rcases mem_postCdr hx with hx | ⟨heq, hx⟩
      · exact (CdrHeap.at?_update_of_ne (hqueue hF w' hw' x hx) f).trans (hfaithful x hx)
      · rw [heq]
        exact hx
    · rw [postCdr_written]
      exact hwritten

/-- If the record is still in the queue, then it is not what was posted any more. -/
theorem not_faithful_report (h : Books F c) (hfaithful : c.Faithful) {leg : Leg}
    (hp : c.calls.recordOf leg = some p) (hqueue : ¬c.Unqueued p) {f : CdrInfo → CdrInfo}
    (hf : ∀ r, (f r).cdrType ≠ .originationRequest) (hcdrs : c'.cdrs = c.cdrs.update p f)
    (hwriter : c'.cdrWriter = c.cdrWriter.map fun w => w.postCdr (c.cdrs.update p f) p) :
    ¬c'.Faithful := by
  intro hfaithful'
  simp only [Unqueued, not_forall, not_not] at hqueue
  obtain ⟨w, hw, x, hx, rfl⟩ := hqueue
  have hr := (hfaithful w hw).1 x hx
  obtain ⟨r, hr', htype⟩ := h.record leg _ hp
  obtain rfl : r = x.record := Option.some.inj (hr'.symm.trans hr)
  have hw' : w.postCdr (c.cdrs.update x.address f) x.address ∈ c'.cdrWriter := by
    rw [hwriter, show c.cdrWriter = some w from hw]
    rfl
  have hx' : x ∈ (w.postCdr (c.cdrs.update x.address f) x.address).queue := by
    unfold CdrWriter.postCdr
    split
    · exact List.mem_append_left _ hx
    · exact hx
  have hpost := (hfaithful' _ hw').1 x hx'
  rw [hcdrs, CdrHeap.at?_update_self, hr] at hpost
  have hsame : f x.record = x.record := Option.some.inj hpost
  have htype' : (f x.record).cdrType = .originationRequest := by
    rw [hsame]
    exact htype
  exact hf x.record htype'

/-! ### CANCEL -/

theorem reportCancel_eq {leg : Leg} (hp : c.calls.recordOf leg = some p) (orq : Orq) :
    c.reportCancel orq leg = (c.setCdr p c.populateCancelCdr).postCdr p := by
  unfold Calls.recordOf at hp
  obtain ⟨d, hd, hcdr⟩ := Option.bind_eq_some_iff.1 hp
  simp only [reportCancel, hd, hcdr]

theorem Books.reportCancel (h : Books F c) {leg : Leg} (hp : c.calls.recordOf leg = none) (orq : Orq) :
    Books F (c.reportCancel orq leg) := by
  unfold Controller.reportCancel
  cases hd : c.calls.mapDialogInfo leg with
  | some d =>
    cases hcdr : d.cdr with
    | some q =>
      rw [Calls.recordOf, hd] at hp
      exact absurd (hcdr.symm.trans hp) (Option.some_ne_none q)
    | none =>
      simp only [hcdr]
      exact h.of_eq rfl rfl rfl rfl
  | none =>
    dsimp only
    split
    · exact h.postFinalResponse _ .terminationAttempt 487
    · exact h

/-- `clearDialog` leaves no record of the leg, or the process is gone. -/
theorem recordOf_of_cleared {leg l : Leg} {q : ℕ} (hfault : .endIterator ∉ (s.clearDialog leg).faults)
    (h : (s.clearDialog leg).recordOf l = some q) : s.recordOf l = some q ∧ l ≠ leg := by
  obtain ⟨hq, hne⟩ := recordOf_clearDialog h
  cases hother : s.getAssociatedDialog leg with
  | none =>
    refine absurd ?_ hfault
    unfold Calls.clearDialog
    rw [hother]
    exact List.mem_cons_self
  | some other => exact ⟨hq, (hne other hother).1⟩

/-- A CANCEL that ends a call. -/
theorem processCancel_eq {irq : Irq} (horq : c.calls.getAssociatedOutgoing irq ≠ .null)
    (hleg : c.calls.legFromIncoming irq ≠ .null) :
    c.processCancel irq =
      ((c.withCalls (c.calls.record (.cancelled irq))).reportCancel (c.calls.getAssociatedOutgoing irq)
        (c.calls.legFromIncoming irq)).withCalls
        (((((c.calls.record (.cancelled irq)).destroyOutgoing
          (c.calls.getAssociatedOutgoing irq)).clearTransaction
          (c.calls.getAssociatedOutgoing irq)).clearDialog (c.calls.legFromIncoming irq)).eraseAttempt
          (c.calls.getAssociatedOutgoing irq)) := by
  have hassociated : (c.withCalls (c.calls.record (.cancelled irq))).calls.getAssociatedOutgoing irq =
    c.calls.getAssociatedOutgoing irq := rfl
  have hfrom : (c.withCalls (c.calls.record (.cancelled irq))).calls.legFromIncoming irq =
    c.calls.legFromIncoming irq := rfl
  unfold processCancel
  dsimp only
  rw [hassociated, hfrom, if_neg horq, if_neg hleg, reportCancel_calls]
  rfl

theorem changedCdr_cancel {irq : Irq} (horq : c.calls.getAssociatedOutgoing irq ≠ .null)
    (hleg : c.calls.legFromIncoming irq ≠ .null) :
    c.changedCdr (.ackOrCancel irq .cancel) = c.calls.recordOf (c.calls.legFromIncoming irq) := by
  rw [changedCdr, if_neg]
  rintro (hne | hnull | hnull)
  · exact hne rfl
  · exact horq hnull
  · exact hleg hnull

/-- What a CANCEL does with the records. -/
theorem Books.processCancel (h : Books F c) {irq : Irq} (hcrash : ¬(c.processCancel irq).Crashed)
    (hdrained : F → c.Drained (.ackOrCancel irq .cancel)) : Books F (c.processCancel irq) := by
  have h' : Books F (c.withCalls (c.calls.record (.cancelled irq))) := h.withCalls (.of_eq rfl)
  by_cases horq : c.calls.getAssociatedOutgoing irq = .null
  · unfold Controller.processCancel
    dsimp only
    rw [if_pos (by exact horq)]
    split_ifs
    · exact h'
    · exact h'.withCalls (.clearDialog _ _)
  by_cases hleg : c.calls.legFromIncoming irq = .null
  · unfold Controller.processCancel
    dsimp only
    rw [if_neg (by exact horq), if_pos (by exact hleg)]
    exact h'
  rw [processCancel_eq horq hleg] at hcrash ⊢
  have hchanged := changedCdr_cancel horq hleg
  generalize hu : Calls.clearTransaction _ _ = u at hcrash ⊢
  have hinfo : u.mapDialogInfo = c.calls.mapDialogInfo := by
    rw [← hu]
    rfl
  cases hp : c.calls.recordOf (c.calls.legFromIncoming irq) with
  | none =>
    refine (h'.reportCancel hp _).withCalls ?_
    rw [reportCancel_calls]
    exact Carried.trans (.of_eq hinfo) ((Carried.clearDialog u _).trans (.of_eq rfl))
  | some p =>
    rw [reportCancel_eq (c := c.withCalls (c.calls.record (.cancelled irq))) hp] at hcrash ⊢
    refine h'.report hp (fun hF => hdrained hF p (hchanged.trans hp)) _ fun l q hq => ?_
    obtain ⟨hq, hne⟩ := recordOf_of_cleared (s := u) (fun hfault => hcrash (.inr (.inl hfault))) hq
    rw [Calls.recordOf, hinfo] at hq
    exact ⟨hq, hne⟩

theorem not_faithful_cancel (h : Books F c) (hfaithful : c.Faithful) {irq : Irq}
    (hdrained : ¬c.Drained (.ackOrCancel irq .cancel)) : ¬(c.processCancel irq).Faithful := by
  simp only [Drained, not_forall] at hdrained
  obtain ⟨p, hchanged, hqueue⟩ := hdrained
  have hlegs : c.calls.getAssociatedOutgoing irq ≠ .null ∧ c.calls.legFromIncoming irq ≠ .null := by
    by_contra hnull
    have hnone : c.changedCdr (.ackOrCancel irq .cancel) = none := by
      rw [changedCdr, if_pos]
      exact .inr (by tauto)
    rw [hnone] at hchanged
    cases hchanged
  have hp : c.calls.recordOf (c.calls.legFromIncoming irq) = some p :=
    (changedCdr_cancel hlegs.1 hlegs.2).symm.trans hchanged
  rw [processCancel_eq hlegs.1 hlegs.2,
    reportCancel_eq (c := c.withCalls (c.calls.record (.cancelled irq))) hp]
  exact not_faithful_report h hfaithful hp hqueue (fun _ => by simp [populateCancelCdr]) rfl rfl

/-! ### BYE -/

theorem byeCdr_spec {leg other : Leg} {d : SipDialogInfo} {released : Bool}
    (h : c.byeCdr leg other = some (d, released)) :
    c.calls.mapDialogInfo leg = some d ∨ c.calls.mapDialogInfo other = some d := by
  have hother : ((c.calls.mapDialogInfo other).filter (·.bOrigination)).map (fun d => (d, false)) =
      some (d, released) → c.calls.mapDialogInfo other = some d := by
    intro h
    obtain ⟨d', hd', heq⟩ := Option.map_eq_some_iff.1 h
    obtain ⟨rfl, -⟩ := Prod.mk.inj heq
    exact (Option.filter_eq_some_iff.1 hd').1
  unfold byeCdr at h
  cases hleg : c.calls.mapDialogInfo leg with
  | none =>
    rw [hleg] at h
    exact .inr (hother h)
  | some d' =>
    rw [hleg] at h
    dsimp only at h
    split_ifs at h
    · obtain ⟨rfl, -⟩ := Prod.mk.inj (Option.some.inj h)
      exact .inl rfl
    · exact .inr (hother h)

/-- The record that a BYE changes is that of one of the two legs. -/
theorem recordOf_of_byeCdr {leg other : Leg} (h : ((c.byeCdr leg other).bind fun r => r.1.cdr) = some p) :
    c.calls.recordOf leg = some p ∨ c.calls.recordOf other = some p := by
  obtain ⟨⟨d, released⟩, hbye, hcdr⟩ := Option.bind_eq_some_iff.1 h
  unfold Calls.recordOf
  rcases byeCdr_spec hbye with hd | hd
  · exact .inl (by rw [hd]; exact hcdr)
  · exact .inr (by rw [hd]; exact hcdr)

theorem reportBye_eq {leg other : Leg} (h : ((c.byeCdr leg other).bind fun r => r.1.cdr) = some p) :
    ∃ released, c.reportBye leg other = (c.setCdr p (c.populateByeCdr released)).postCdr p := by
  obtain ⟨⟨d, released⟩, hbye, hcdr⟩ := Option.bind_eq_some_iff.1 h
  refine ⟨released, ?_⟩
  dsimp only at hcdr
  simp only [reportBye, hbye, hcdr]

theorem Books.reportBye (h : Books F c) {leg other : Leg}
    (hnone : ((c.byeCdr leg other).bind fun r => r.1.cdr) = none) : Books F (c.reportBye leg other) := by
  unfold Controller.reportBye
  cases hbye : c.byeCdr leg other with
  | none => exact h
  | some r =>
    rw [hbye] at hnone
    have hcdr : r.1.cdr = none := hnone
    simp only [hcdr]
    exact h.of_eq rfl rfl rfl rfl

/-- What a BYE does with the records. -/
theorem Books.processBye (h : Books F c) {leg other : Leg} (hother : c.calls.getAssociatedDialog leg = some other)
    (irq : Irq) (hdrained : F → other ≠ .null →
      ∀ p, ((c.byeCdr leg other).bind fun r => r.1.cdr) = some p → c.Unqueued p) :
    Books F (c.processBye leg other irq) := by
  unfold Controller.processBye
  dsimp only
  split_ifs with hnull
  · exact h.withCalls ((Carried.clearDialog _ leg).trans (.of_eq rfl))
  have h' : Books F (c.withCalls (c.calls.record (.sent other .bye))) := h.withCalls (.of_eq rfl)
  rw [reportBye_calls]
  cases hp : ((c.byeCdr leg other).bind fun r => r.1.cdr) with
  | none =>
    refine (h'.reportBye hp).withCalls ?_
    rw [reportBye_calls]
    exact (Carried.clearDialog _ leg).trans (.of_eq rfl)
  | some p =>
    obtain ⟨released, heq⟩ := reportBye_eq (c := c.withCalls (c.calls.record (.sent other .bye))) hp
    rw [heq]
    -- The records of both sides go with the dialog.
    have hgone : ∀ l q, ((c.calls.record (.sent other .bye)).clearDialog leg).recordOf l = some q →
        c.calls.recordOf l = some q ∧ l ≠ leg ∧ l ≠ other := by
      intro l q hq
      obtain ⟨hq, hne⟩ := recordOf_clearDialog hq
      exact ⟨hq, (hne other hother).1, (hne other hother).2 hnull⟩
    rcases recordOf_of_byeCdr hp with hleg | hleg
    · exact h'.report hleg (fun hF => hdrained hF hnull p hp) _ fun l q hq =>
        ⟨(hgone l q hq).1, (hgone l q hq).2.1⟩
    · exact h'.report hleg (fun hF => hdrained hF hnull p hp) _ fun l q hq =>
        ⟨(hgone l q hq).1, (hgone l q hq).2.2⟩

theorem changedCdr_bye {leg other : Leg} (hother : c.calls.getAssociatedDialog leg = some other)
    (hnull : other ≠ .null) {sip : Request} (hbye : sip.method = .bye) (nta : Creations) :
    c.changedCdr (.requestInsideDialog leg sip nta) = (c.byeCdr leg other).bind fun r => r.1.cdr := by
  unfold changedCdr
  dsimp only
  rw [if_neg (not_not.2 hbye), hother]
  exact if_neg hnull

theorem Books.sendOn (h : Books F c) (other : Leg) (irq : Irq) (sip : Request) (nta : Creations) :
    Books F (c.sendOn other irq sip nta) :=
  h.withCalls (.of_eq (createOutgoing_info _ _ _ _ _ _))

theorem Books.processMethod (h : Books F c) {leg other : Leg}
    (hother : c.calls.getAssociatedDialog leg = some other) (irq : Irq) (sip : Request) (nta : Creations)
    (hdrained : F → sip.method = .bye → other ≠ .null →
      ∀ p, ((c.byeCdr leg other).bind fun r => r.1.cdr) = some p → c.Unqueued p) :
    Books F (c.processMethod leg other irq sip nta).1 := by
  have hforward : Books F
      (if other = .null then (c, (481 : ℤ)) else (c.sendOn other irq sip nta, 0)).1 := by
    split_ifs
    · exact h
    · exact h.sendOn other irq sip nta
  unfold Controller.processMethod
  cases hm : sip.method with
  | bye => exact h.processBye hother irq fun hF => hdrained hF hm
  | ack => exact h.withCalls (.of_eq rfl)
  | invite => exact hforward
  | cancel => exact hforward
  | options => exact hforward
  | other name => exact hforward

theorem Books.requestInsideDialog (h : Books F c) (leg : Leg) (sip : Request) (nta : Creations)
    (hdrained : F → c.Drained (.requestInsideDialog leg sip nta)) :
    Books F (c.requestInsideDialog leg sip nta) := by
  unfold Controller.requestInsideDialog
  dsimp only
  refine Books.withCalls ?_ (.of_eq (legRecv_info _ _ _ _))
  have h' : Books F (c.withCalls (c.calls.receive leg)) := h.withCalls (.of_eq rfl)
  unfold processRequestInsideDialog
  have hdialog : (c.withCalls (c.calls.receive leg)).calls.getAssociatedDialog leg =
    c.calls.getAssociatedDialog leg := rfl
  rw [hdialog]
  cases hother : c.calls.getAssociatedDialog leg with
  | none => exact h'.withCalls (.of_eq rfl)
  | some other =>
    dsimp only
    split_ifs with hnull
    · have hfault : Books F ((c.withCalls (c.calls.receive leg)).withCalls
        ((c.calls.receive leg).fault (.assertion .requestNoOther))) := h'.withCalls (.of_eq rfl)
      exact hfault.processMethod hother ⟨c.calls.next⟩ sip nta fun _ _ hne => absurd hnull hne
    · refine h'.processMethod (by exact hother) ⟨c.calls.next⟩ sip nta fun hF hbye _ p hp => ?_
      exact hdrained hF p ((changedCdr_bye hother hnull hbye nta).trans hp)

theorem not_faithful_bye (h : Books F c) (hfaithful : c.Faithful) {leg : Leg} {sip : Request}
    {nta : Creations} (hdrained : ¬c.Drained (.requestInsideDialog leg sip nta)) :
    ¬(c.requestInsideDialog leg sip nta).Faithful := by
  simp only [Drained, not_forall] at hdrained
  obtain ⟨p, hchanged, hqueue⟩ := hdrained
  have hp : c.changedCdr (.requestInsideDialog leg sip nta) = some p := hchanged
  unfold changedCdr at hp
  dsimp only at hp
  split_ifs at hp with hbye
  cases hother : c.calls.getAssociatedDialog leg with
  | none =>
    rw [hother] at hp
    cases hp
  | some other =>
    rw [hother] at hp
    dsimp only at hp
    split_ifs at hp with hnull
    obtain ⟨released, heq⟩ := reportBye_eq
      (c := (c.withCalls (c.calls.receive leg)).withCalls ((c.calls.receive leg).record (.sent other .bye))) hp
    have hdialog : (c.withCalls (c.calls.receive leg)).calls.getAssociatedDialog leg = some other := hother
    have hcdrs : (c.requestInsideDialog leg sip nta).cdrs = c.cdrs.update p (c.populateByeCdr released) ∧
        (c.requestInsideDialog leg sip nta).cdrWriter =
          c.cdrWriter.map fun w => w.postCdr (c.cdrs.update p (c.populateByeCdr released)) p := by
      have hm : sip.method = .bye := not_not.1 hbye
      simp only [requestInsideDialog, processRequestInsideDialog, hdialog, if_neg hnull, processMethod, hm,
        processBye]
      rw [withCalls_calls, heq]
      exact ⟨rfl, rfl⟩
    have htype : ∀ r, (c.populateByeCdr released r).cdrType ≠ .originationRequest := fun _ => by
      simp [populateByeCdr]
    rcases recordOf_of_byeCdr hp with hleg | hleg
    · exact not_faithful_report h hfaithful hleg hqueue htype hcdrs.1 hcdrs.2
    · exact not_faithful_report h hfaithful hleg hqueue htype hcdrs.1 hcdrs.2

/-! ## The writer -/

theorem Books.writeCdr (h : Books F c) (connected : Bool) :
    Books F { c with cdrWriter := c.cdrWriter.map fun w => w.writeCdr c.cdrs connected } := by
  -- The queue only loses its first record, which is written as it stands.
  have hstep : ∀ w : CdrWriter, (∀ x ∈ (w.writeCdr c.cdrs connected).queue, x ∈ w.queue) ∧
      ∀ r ∈ (w.writeCdr c.cdrs connected).written, r ∈ w.written ∨
        ∃ x ∈ w.queue, r.posted = x.record ∧ c.cdrs.at? x.address = some r.record := by
    intro w
    unfold CdrWriter.writeCdr
    cases hqueue : w.queue with
    | nil => exact ⟨fun x hx => hqueue ▸ hx, fun r hr => .inl hr⟩
    | cons x rest =>
      dsimp only
      split
      · rename_i cdr hcdr
        refine ⟨fun y hy => List.mem_cons_of_mem _ hy, fun r hr => ?_⟩
        rcases List.mem_append.1 hr with hr | hr
        · exact .inl hr
        · rw [List.mem_singleton.1 hr]
          exact .inr ⟨x, List.mem_cons_self, rfl, hcdr⟩
      · exact ⟨fun y hy => List.mem_cons_of_mem _ hy, fun r hr => .inl hr⟩
  refine ⟨?_, ?_, h.record, h.distinct, ?_⟩
  · intro w hw x hx
    obtain ⟨w', hw', rfl⟩ := Option.map_eq_some_iff.1 hw
    exact h.queue_lt w' hw' x ((hstep w').1 x hx)
  · intro a ha
    refine ⟨fun w hw x hx => ?_, (h.attempt a ha).2⟩
    obtain ⟨w', hw', rfl⟩ := Option.map_eq_some_iff.1 hw
    exact (h.attempt a ha).1 w' hw' x ((hstep w').1 x hx)
  · intro hF w hw
    obtain ⟨w', hw', rfl⟩ := Option.map_eq_some_iff.1 hw
    obtain ⟨hfaithful, hwritten⟩ := h.faithful hF w' hw'
    refine ⟨fun x hx => hfaithful x ((hstep w').1 x hx), fun r hr => ?_⟩
    rcases (hstep w').2 r hr with hr | ⟨x, hx, hposted, hrecord⟩
    · exact hwritten r hr
    · rw [hposted]
      exact Option.some.inj (hrecord.symm.trans (hfaithful x hx))

/-! ## All runs -/

/-- What an event does with the records. -/
theorem Books.next (h : Books F c) {e : ControllerEvent} (he : machine.enabled c e)
    (hdrained : F → c.Drained e) : Books F (c.next e) := by
  cases e with
  | requestOutsideDialog sip uuid nta => exact h.requestOutsideDialog sip uuid nta
  | inviteResponse orq sip nta => exact h.processInviteResponseInsideDialog orq sip nta
  | ackOrCancel irq method =>
    have hcrash := he.2
    change ¬(c.processAckOrCancel irq method).Crashed at hcrash
    change Books F (c.processAckOrCancel irq method)
    unfold processAckOrCancel at *
    split_ifs at * with hmethod
    · subst hmethod
      exact h.processCancel hcrash hdrained
    · exact h
  | requestInsideDialog leg sip nta => exact h.requestInsideDialog leg sip nta hdrained
  | responseInsideDialog orq sip => exact h.processResponseInsideDialog orq sip
  | sessionRefreshTimer leg => exact h.processSessionRefreshTimer leg
  | retransmittedResponse leg sip => exact h.processRetransmittedResponse leg sip
  | writeCdr connected => exact h.writeCdr connected
  | clock now => exact h.of_eq rfl rfl rfl rfl
  | monitor fsMonitor => exact h.of_eq rfl rfl rfl rfl
  | resetTrunkStats => exact h.of_eq rfl rfl rfl rfl

theorem not_faithful_next (h : Books F c) (hfaithful : c.Faithful) {e : ControllerEvent}
    (hdrained : ¬c.Drained e) : ¬(c.next e).Faithful := by
  -- No other event changes a record that it has not just made.
  have hnone : ∀ e, c.changedCdr e = none → c.Drained e := by
    intro e hnone p hp
    rw [hnone] at hp
    cases hp
  cases e with
  | ackOrCancel irq method =>
    have hmethod : method = .cancel := by
      by_contra hmethod
      exact hdrained (hnone _ (if_pos (.inl hmethod)))
    subst hmethod
    exact not_faithful_cancel h hfaithful hdrained
  | requestInsideDialog leg sip nta => exact not_faithful_bye h hfaithful hdrained
  | requestOutsideDialog _ _ _ | inviteResponse _ _ _ | responseInsideDialog _ _
  | sessionRefreshTimer _ | retransmittedResponse _ _ | writeCdr _ | clock _ | monitor _
  | resetTrunkStats => exact absurd (hnone _ rfl) hdrained

theorem books_initial (h : c.Initial) : Books True c := by
  have hrecord : ∀ l, c.calls.recordOf l = none := fun l => by
    rw [h.calls]
    rfl
  refine ⟨?_, ?_, ?_, ?_, fun _ w hw => ?_⟩
  · intro w hw x hx
    rw [(h.cdrWriter w hw).1] at hx
    exact absurd hx List.not_mem_nil
  · intro a ha
    rw [h.attempts] at ha
    exact absurd ha List.not_mem_nil
  · intro l p hp
    rw [hrecord] at hp
    cases hp
  · intro l l' p hp
    rw [hrecord] at hp
    cases hp
  · rw [(h.cdrWriter w hw).1, (h.cdrWriter w hw).2]
    exact ⟨fun _ hx => absurd hx List.not_mem_nil, fun _ hr => absurd hr List.not_mem_nil⟩

/-- The writer is faithful throughout a run exactly if no record is changed in its queue. -/
theorem always_faithful_iff {es : List ControllerEvent} (hrun : machine.IsRun c es) :
    machine.Always Faithful c es ↔ machine.Along Drained c es := by
  have hinit := books_initial hrun.1
  refine Machine.always_iff_along (I := Books False) ?_ ?_ ?_ (hinit.faithful trivial) hrun.2
  · exact fun c e h _ he _ => h.next he False.elim
  · intro c e h hfaithful he
    constructor
    · intro hnext
      by_contra hdrained
      exact not_faithful_next h hfaithful hdrained hnext
    · intro hdrained
      have h' : Books True c := { h with faithful := fun _ => hfaithful }
      exact (h'.next he fun _ => hdrained).faithful trivial
  · exact { hinit with faithful := False.elim }

/-- **The records are written as they were posted exactly in the runs in which no CANCEL or BYE
    changes a record that is still in the queue.** In these runs, the beginning of a call is
    written as the `INSERT` that it was posted for. -/
theorem faithful_iff {es : List ControllerEvent} (hrun : machine.IsRun c es) :
    (machine.Always Faithful c es ↔ machine.Along Drained c es) ∧
      (machine.Along Drained c es →
        machine.Always (fun c => ∀ w ∈ c.cdrWriter, ∀ r ∈ w.written, r.record = r.posted ∧
          (r.posted.cdrType = .originationRequest →
            ∃ params, r.record.executions = [⟨.orig, params⟩])) c es) := by
  refine ⟨always_faithful_iff hrun, fun hdrained => ?_⟩
  refine ((always_faithful_iff hrun).2 hdrained).mono fun c hfaithful w hw r hr => ?_
  have heq := (hfaithful w hw).2 r hr
  refine ⟨heq, fun htype => ?_⟩
  rw [heq, CdrInfo.executions, htype]
  exact ⟨_, rfl⟩

end

/-- A call that is cancelled after its record was written. -/
def exampleLateCancel : List ControllerEvent :=
  [exampleInviteEvent, .writeCdr true, .ackOrCancel ⟨1⟩ .cancel, .writeCdr true]

theorem faithful_exampleLateCancel :
    machine.IsRun exampleStart exampleLateCancel ∧ machine.Along Drained exampleStart exampleLateCancel ∧
      machine.Always Faithful exampleStart exampleLateCancel := by
  have hrun : machine.IsRun exampleStart exampleLateCancel := by
    refine ⟨exampleStart_initial, exampleInviteEvent_enabled, ⟨trivial, by decide⟩,
      ⟨⟨_, rfl, rfl, rfl⟩, by decide⟩, ⟨trivial, by decide⟩, trivial⟩
  have hdrained : machine.Along Drained exampleStart exampleLateCancel := by
    refine ⟨?_, ?_, fun p _ w hw x hx => ?_, ?_, trivial⟩
    · exact fun p hp => by cases hp
    · exact fun p hp => by cases hp
    · obtain rfl := Option.some.inj hw
      cases hx
    · exact fun p hp => by cases hp
  exact ⟨hrun, hdrained, (faithful_iff hrun).1.2 hdrained⟩

/-- A call that is cancelled before its record is written. -/
def exampleEarlyCancel : List ControllerEvent :=
  [exampleInviteEvent, .ackOrCancel ⟨1⟩ .cancel, .writeCdr true, .writeCdr true]

/-- The record posted for the beginning of the call is written as one of its end, and nothing
    is ever inserted. -/
theorem early_cancel :
    machine.IsRun exampleStart exampleEarlyCancel ∧
      (machine.exec exampleStart exampleEarlyCancel).cdrWriter.map (fun w =>
        (w.written.map fun r => (r.posted.cdrType, r.record.cdrType), w.executions.map (·.stmt))) =
      some ([(.originationRequest, .originationCancel), (.originationCancel, .originationCancel)],
        [.cancel, .cancel]) := by
  refine ⟨⟨exampleStart_initial, exampleInviteEvent_enabled, ⟨⟨_, rfl, rfl, rfl⟩, by decide⟩,
    ⟨trivial, by decide⟩, ⟨trivial, by decide⟩, trivial⟩, by decide⟩

end Controller

end Ssp
