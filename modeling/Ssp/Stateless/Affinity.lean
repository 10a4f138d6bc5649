import Ssp.Stateless.Completion

/-!
# Where the requests of a call go

From its INVITE on, all requests of a call go to the server that the INVITE went to, until the
watchdog takes the call out of the table. This is not before the INVITE was answered with 200,
and not until `MAX_RETRANSMISSION_WAIT` seconds after that and after the last request
(`affinity`). Later answers of the same kind, and other responses, do not count.

A call keeps two things up: its expiry time is that long after the last of these messages, and
it is completed exactly if there was an answer (`Kept`).
-/

namespace Ssp

/-- A request of the call. -/
def StatelessEvent.requests (callId : Bytes) : StatelessEvent → Bool
  | .message (.request sip) _ => sip.callId = callId
  | _ => false

/-- A response 200 to the INVITE of the call. -/
def StatelessEvent.answers (callId : Bytes) : StatelessEvent → Bool
  | .message (.response callId' sip) _ => callId' = callId ∧ sip.cseqMethod = .invite ∧ sip.status = 200
  | _ => false

namespace StatelessAgent

/-- Where the message of an event goes. -/
def goesTo (s : StatelessAgent) : StatelessEvent → Option Disposition
  | .message msg rv => some (s.statelessCallback msg rv).2
  | _ => none

/-- The call is in the table. -/
def InTable (callId : Bytes) (s : StatelessAgent) : Prop := s.mapInvitesInProgress.find? callId ≠ none

instance (callId : Bytes) (s : StatelessAgent) : Decidable (InTable callId s) :=
  inferInstanceAs (Decidable (_ ≠ none))

variable {s : StatelessAgent} {e : StatelessEvent} {callId url : Bytes} {call call' : SipInboundCall}

/-! ## One step -/

/-- What an event does to a call that stays in the table. -/
structure Stays (s : StatelessAgent) (e : StatelessEvent) (callId : Bytes) (call call' : SipInboundCall) : Prop where
  strDestUrl : call'.strDestUrl = call.strDestUrl
  bComplete : call'.bComplete = true ↔ call.bComplete = true ∨ e.answers callId = true
  later : call.expireTime ≤ s.now + maxRetransmissionWait → call.expireTime ≤ call'.expireTime ∧
    call'.expireTime ≤ (s.next e).now + maxRetransmissionWait
  requested : e.requests callId = true → s.now + maxRetransmissionWait ≤ call'.expireTime
  answered : e.answers callId = true → call.bComplete = false → s.now + maxRetransmissionWait ≤ call'.expireTime

/-- A call that an event is not about. -/
theorem Stays.of_same (hnow : s.now ≤ (s.next e).now) (hrequests : e.requests callId = false)
    (hanswers : e.answers callId = true → call.bComplete = true) : Stays s e callId call call where
  strDestUrl := rfl
  bComplete := ⟨.inl, fun h => h.elim id hanswers⟩
  later hle := ⟨le_rfl, hle.trans (Nat.add_le_add_right hnow _)⟩
  requested h := absurd (h.symm.trans hrequests) Bool.noConfusion
  answered h hnot := absurd ((hanswers h).symm.trans hnot) Bool.noConfusion

theorem next_now (he : machine.enabled s e) : s.now ≤ (s.next e).now := by
  cases e with
  | message msg rv => exact (s.statelessCallback_frame msg rv).1.ge
  | clock now => exact he.1
  | watchdog idle => exact (s.processWatchdogTimer_now idle).ge
  | monitor fsMonitor | installConfig agentMode bIsActive => exact le_rfl

theorem stays_message {msg : SipMessage} {rv : ℤ} (he : machine.enabled s (.message msg rv))
    (hcall : s.mapInvitesInProgress.find? callId = some call)
    (hcall' : (s.next (.message msg rv)).mapInvitesInProgress.find? callId = some call') :
    Stays s (.message msg rv) callId call call' := by
  have hnow : (s.next (.message msg rv)).now = s.now := (s.statelessCallback_frame msg rv).1
  have hsame := @Stays.of_same s _ callId call (next_now he)
  change (s.statelessCallback msg rv).1.mapInvitesInProgress.find? callId = _ at hcall'
  cases handling_message he.2 with
  | forwarded sip old hmsg hold hputs hdeq hd =>
    subst hmsg
    rw [hputs callId] at hcall'
    split_ifs at hcall' with heq
    · -- The time of the call is set.
      obtain rfl := Option.some_inj.1 hcall'
      obtain rfl : call = old := Option.some_inj.1 (hcall.symm.trans (heq ▸ hold))
      refine ⟨rfl, ⟨.inl, fun h => h.elim id Bool.noConfusion⟩, fun hle => ⟨hle, ?_⟩, fun _ => le_rfl, Bool.noConfusion⟩
      rw [hnow]
      exact le_rfl
    · obtain rfl := Option.some_inj.1 (hcall.symm.trans hcall')
      exact hsame (decide_eq_false fun h => heq h.symm) Bool.noConfusion
  | added sip url hmsg hmethod hnone hputs hdeq hd =>
    subst hmsg
    have hne : callId ≠ sip.callId := by
      rintro rfl
      cases hcall.symm.trans hnone
    rw [hputs callId, if_neg hne] at hcall'
    obtain rfl := Option.some_inj.1 (hcall.symm.trans hcall')
    exact hsame (decide_eq_false hne.symm) Bool.noConfusion
  | noted callId' sip old hmsg hold hmethod hstatus hputs hdeq =>
    subst hmsg
    rw [hputs callId] at hcall'
    split_ifs at hcall' with heq
    · obtain rfl := Option.some_inj.1 hcall'
      obtain rfl : call = old := Option.some_inj.1 (hcall.symm.trans (heq ▸ hold))
      have hstays := hsame rfl fun h => hstatus.elim (fun hne => absurd (of_decide_eq_true h).2.2 hne) id
      exact { hstays with }
    · obtain rfl := Option.some_inj.1 (hcall.symm.trans hcall')
      exact hsame rfl fun h => absurd (of_decide_eq_true h).1.symm heq
  | completed callId' sip old hmsg hold hmethod hstatus hnot hputs hdeq =>
    subst hmsg
    rw [hputs callId] at hcall'
    split_ifs at hcall' with heq
    · obtain rfl := Option.some_inj.1 hcall'
      obtain rfl : call = old := Option.some_inj.1 (hcall.symm.trans (heq ▸ hold))
      refine ⟨rfl, iff_of_true rfl (.inr (decide_eq_true ⟨heq.symm, hmethod, hstatus⟩)), fun hle => ⟨hle, ?_⟩,
        Bool.noConfusion, fun _ _ => le_rfl⟩
      rw [hnow]
      exact le_rfl
    · obtain rfl := Option.some_inj.1 (hcall.symm.trans hcall')
      exact hsame rfl fun h => absurd (of_decide_eq_true h).1.symm heq
  | aside hmsg hmap hdeq =>
    rw [hmap, hcall] at hcall'
    obtain rfl := Option.some_inj.1 hcall'
    cases msg with
    | request sip =>
      refine hsame (decide_eq_false ?_) Bool.noConfusion
      rintro rfl
      cases hcall.symm.trans hmsg
    | response callId' sip =>
      refine hsame rfl fun h => ?_
      obtain ⟨rfl, hmethod, -⟩ := of_decide_eq_true h
      exact hmsg.elim (fun hnone => nomatch hcall.symm.trans hnone) (absurd hmethod)

/-- **What becomes of a call in the table**: it stays, or the watchdog takes it out once it is
    completed and expired. -/
theorem Inv.call_next (h : s.Inv) (he : machine.enabled s e) (hcall : s.mapInvitesInProgress.find? callId = some call) :
    (∃ call', (s.next e).mapInvitesInProgress.find? callId = some call' ∧ Stays s e callId call call') ∨
      (s.next e).mapInvitesInProgress.find? callId = none ∧ call.bComplete = true ∧ call.expireTime ≤ s.now ∧
        e.requests callId = false := by
  cases e with
  | message msg rv =>
    cases hcall' : (s.next (.message msg rv)).mapInvitesInProgress.find? callId with
    | some call' => exact .inl ⟨call', rfl, stays_message he hcall hcall'⟩
    | none =>
      -- No message takes a call out of the table.
      exfalso
      have hputs : ∀ {callId' : Bytes} {new : SipInboundCall},
          ¬Puts s (s.next (.message msg rv)) callId' new := by
        intro callId' new hputs
        rw [hputs callId] at hcall'
        split_ifs at hcall'
        cases hcall.symm.trans hcall'
      cases handling_message he.2 with
      | forwarded sip old hmsg hold hputs' hdeq hd => exact hputs hputs'
      | added sip url hmsg hmethod hnone hputs' hdeq hd => exact hputs hputs'
      | noted callId' sip old hmsg hold hmethod hstatus hputs' hdeq => exact hputs hputs'
      | completed callId' sip old hmsg hold hmethod hstatus hnot hputs' hdeq => exact hputs hputs'
      | aside hmsg hmap hdeq => cases hcall.symm.trans (hmap ▸ hcall')
  | watchdog idle =>
    obtain ⟨gone, hqueue, hgone, hfind, -⟩ := h.toConsistent.watchdog_cases idle
    have hfind' := hfind callId
    split_ifs at hfind' with hmem
    · refine .inr ⟨hfind', (h.toConsistent.mem_iff hcall).1 ?_, ?_, rfl⟩
      · rw [hqueue]
        exact List.mem_append_left _ hmem
      · obtain ⟨old, hold, hle⟩ := hgone callId hmem
        obtain rfl : call = old := Option.some_inj.1 (hcall.symm.trans hold)
        exact hle
    · exact .inl ⟨call, hfind'.trans hcall, .of_same (next_now he) rfl Bool.noConfusion⟩
  | clock now | monitor fsMonitor | installConfig agentMode bIsActive =>
    exact .inl ⟨call, hcall, .of_same (next_now he) rfl Bool.noConfusion⟩

/-! ## Runs -/

/-- A call that is in the table since the state `s`, after the events `es`: it has its URL, and
    its time is late enough for the requests and the first answer among them. -/
structure Kept (s : StatelessAgent) (es : List StatelessEvent) (callId url : Bytes) (call : SipInboundCall) : Prop where
  found : (machine.exec s es).mapInvitesInProgress.find? callId = some call
  strDestUrl : call.strDestUrl = url
  expireTime : call.expireTime ≤ (machine.exec s es).now + maxRetransmissionWait
  completed : call.bComplete = true ↔ machine.first? (StatelessEvent.answers callId) s es ≠ none
  answered : ∀ t ∈ machine.first? (StatelessEvent.answers callId) s es, t.now + maxRetransmissionWait ≤ call.expireTime
  requested : machine.Along (fun t e => e.requests callId = true → t.now + maxRetransmissionWait ≤ call.expireTime) s es
  sent : machine.Along (fun t e => e.requests callId = true → t.goesTo e = some (.sent url)) s es

/-- A request of a call in the table goes to its URL. -/
theorem goesTo_of_call (hcall : s.mapInvitesInProgress.find? callId = some call)
    (he : e.requests callId = true) : s.goesTo e = some (.sent call.strDestUrl) := by
  cases e with
  | message msg rv =>
    cases msg with
    | request sip =>
      obtain rfl : sip.callId = callId := of_decide_eq_true he
      change some (s.statelessCallback (.request sip) rv).2 = _
      rw [statelessCallback, hcall]
    | response callId' sip => cases he
  | watchdog idle | clock now | monitor fsMonitor | installConfig agentMode bIsActive => cases he

theorem Kept.step {es : List StatelessEvent} (h : Kept s es callId url call)
    (hstays : Stays (machine.exec s es) e callId call call')
    (hcall' : ((machine.exec s es).next e).mapInvitesInProgress.find? callId = some call') :
    Kept s (es ++ [e]) callId url call' := by
  obtain ⟨hle, hnow⟩ := hstays.later h.expireTime
  have hexec : machine.exec s (es ++ [e]) = (machine.exec s es).next e := Machine.exec_append ..
  have hfirst : machine.first? (StatelessEvent.answers callId) s (es ++ [e]) =
      (machine.first? (StatelessEvent.answers callId) s es).or
        (if e.answers callId then some (machine.exec s es) else none) := Machine.first?_append ..
  refine ⟨hexec ▸ hcall', hstays.strDestUrl.trans h.strDestUrl, hexec ▸ hnow, ?_, ?_, ?_, ?_⟩
  · rw [hstays.bComplete, h.completed, hfirst]
    cases machine.first? (StatelessEvent.answers callId) s es with
    | none => cases e.answers callId <;> simp
    | some t => simp
  · intro t ht
    rw [hfirst] at ht
    cases hold : machine.first? (StatelessEvent.answers callId) s es with
    | some t' =>
      rw [hold] at ht
      obtain rfl := Option.some_inj.1 ht
      exact (h.answered t' hold).trans hle
    | none =>
      -- It is the first answer.
      rw [hold, Option.none_or] at ht
      split_ifs at ht with hanswers
      · obtain rfl := Option.some_inj.1 ht
        refine hstays.answered hanswers (Bool.eq_false_of_not_eq_true fun hcomplete => ?_)
        exact h.completed.1 hcomplete hold
      · cases ht
  · refine Machine.along_append (h.requested.mono fun t e' hlate he' => (hlate he').trans hle) ⟨?_, trivial⟩
    exact hstays.requested
  · refine Machine.along_append h.sent ⟨fun he => ?_, trivial⟩
    rw [goesTo_of_call h.found he, h.strDestUrl]

/-- What is known of a call as long as it is in the table. -/
theorem kept_of_inTable (hinv : s.Inv) (hcall : s.mapInvitesInProgress.find? callId = some call)
    (hnot : call.bComplete = false) (hexpire : call.expireTime ≤ s.now + maxRetransmissionWait)
    {es : List StatelessEvent} (hes : machine.Along machine.enabled s es) (hstay : machine.Always (InTable callId) s es) :
    (machine.exec s es).Inv ∧ ∃ call', Kept s es callId call.strDestUrl call' := by
  induction es using List.reverseRecOn with
  | nil =>
    refine ⟨hinv, call, hcall, rfl, hexpire, iff_of_false ?_ fun h => h rfl, fun _ ht => ?_, trivial, trivial⟩
    · rw [hnot]
      exact Bool.false_ne_true
    · cases ht
  | append_singleton es e ih =>
    obtain ⟨hes, he, -⟩ := Machine.along_append_iff.1 hes
    obtain ⟨hstay, -, hlast⟩ := Machine.always_append hstay
    obtain ⟨hinv', call', hkept⟩ := ih hes hstay
    have hexec : machine.exec s (es ++ [e]) = (machine.exec s es).next e := Machine.exec_append ..
    refine ⟨hexec ▸ hinv'.next he, ?_⟩
    rcases hinv'.call_next he hkept.found with ⟨call'', hcall'', hstays⟩ | ⟨hnone, -⟩
    · exact ⟨call'', hkept.step hstays hcall''⟩
    · exact absurd hnone hlast

/-- The INVITE that puts a call into the table. -/
theorem added_of_inTable (hinv : s.Inv) (he : machine.enabled s e) (hnone : s.mapInvitesInProgress.find? callId = none)
    (hstay : InTable callId (s.next e)) :
    ∃ sip rv url, e = .message (.request sip) rv ∧ sip.method = .invite ∧ sip.callId = callId ∧
      s.goesTo e = some (.sent url) ∧
      (s.next e).mapInvitesInProgress.find? callId = some { strCallId := callId, strDestUrl := url } := by
  obtain ⟨call, hcall⟩ := Option.ne_none_iff_exists'.1 hstay
  rcases hinv.call_cases he hcall with ⟨old, hold, -⟩ | ⟨-, sip, rv, rfl, rfl⟩
  · cases hnone.symm.trans hold
  · have hputs : ∀ {callId' : Bytes} {old new : SipInboundCall}, s.mapInvitesInProgress.find? callId' = some old →
        ¬Puts s (s.statelessCallback (.request sip) rv).1 callId' new := by
      intro callId' old new hold hputs
      have hcall' := (hputs sip.callId).symm.trans hcall
      split_ifs at hcall' with heq
      · rw [← heq, hnone] at hold
        cases hold
      · cases hnone.symm.trans hcall'
    cases handling_message he.2 with
    | forwarded sip' old hmsg hold hputs' hdeq hd => exact absurd hputs' (hputs hold)
    | noted callId' sip' old hmsg hold hmethod hstatus hputs' hdeq => exact absurd hputs' (hputs hold)
    | completed callId' sip' old hmsg hold hmethod hstatus hnot hputs' hdeq => exact absurd hputs' (hputs hold)
    | aside hmsg hmap hdeq => cases hnone.symm.trans (hmap ▸ hcall)
    | added sip' url hmsg hmethod hnone' hputs' hdeq hd =>
      obtain rfl : sip = sip' := SipMessage.request.inj hmsg
      exact ⟨sip, rv, url, rfl, hmethod, rfl, congrArg some hd, (hputs' sip.callId).trans (if_pos rfl)⟩

/-- **Affinity.** A call comes into the table with an INVITE, which goes to some URL. As long as
    it is there, all its requests go to that URL. It is taken out only after its INVITE was
    answered, `MAX_RETRANSMISSION_WAIT` seconds or more after the first answer and after every
    request that was sent on. -/
theorem affinity {before since : List StatelessEvent} {invite : StatelessEvent}
    (hrun : machine.IsRun s (before ++ invite :: (since ++ [e])))
    (hnew : (machine.exec s before).mapInvitesInProgress.find? callId = none)
    (hstay : machine.Always (InTable callId) ((machine.exec s before).next invite) since) :
    ∃ sip rv url, invite = .message (.request sip) rv ∧ sip.method = .invite ∧ sip.callId = callId ∧
      (machine.exec s before).goesTo invite = some (.sent url) ∧
      machine.Along (fun t e => e.requests callId = true → t.goesTo e = some (.sent url))
        ((machine.exec s before).next invite) (since ++ [e]) ∧
      (¬InTable callId (machine.exec s (before ++ invite :: (since ++ [e]))) →
        ∃ answered ∈ machine.first? (StatelessEvent.answers callId) ((machine.exec s before).next invite) since,
          answered.now + maxRetransmissionWait ≤ (machine.exec s (before ++ invite :: since)).now ∧
          machine.Along (fun t e => e.requests callId = true →
            t.now + maxRetransmissionWait ≤ (machine.exec s (before ++ invite :: since)).now)
            ((machine.exec s before).next invite) since) := by
  obtain ⟨hinit, hes⟩ := hrun
  obtain ⟨hbefore, hinvite, hsince⟩ := Machine.along_append_iff.1 hes
  obtain ⟨hsince, he, -⟩ := Machine.along_append_iff.1 hsince
  have hinv := inv_of_reachable (Machine.Reachable.exec (.init hinit) hbefore)
  obtain ⟨sip, rv, url, heq, hmethod, hcallId, hsent, hcall⟩ := added_of_inTable hinv hinvite hnew hstay.head
  obtain ⟨hinv', call', hkept⟩ := kept_of_inTable (hinv.next hinvite) hcall rfl (Nat.zero_le _) hsince hstay
  refine ⟨sip, rv, url, heq, hmethod, hcallId, hsent, Machine.along_append hkept.sent ⟨fun hrequest => ?_, trivial⟩, ?_⟩
  · exact (goesTo_of_call hkept.found hrequest).trans (congrArg (some ∘ Disposition.sent) hkept.strDestUrl)
  · intro hgone
    have hexec : machine.exec s (before ++ invite :: since) = machine.exec ((machine.exec s before).next invite) since :=
      Machine.exec_append ..
    have hexec' : machine.exec s (before ++ invite :: (since ++ [e])) =
        (machine.exec ((machine.exec s before).next invite) since).next e := by
      rw [← List.cons_append, ← List.append_assoc, Machine.exec_append, hexec]
      rfl
    rw [hexec'] at hgone
    rw [hexec]
    rcases hinv'.call_next he hkept.found with ⟨call'', hcall'', -⟩ | ⟨-, hcomplete, hle, -⟩
    · refine absurd (fun hnone => ?_) hgone
      cases hnone.symm.trans hcall''
    · obtain ⟨answered, hanswered⟩ := Option.ne_none_iff_exists'.1 (hkept.completed.1 hcomplete)
      exact ⟨answered, hanswered, (hkept.answered answered hanswered).trans hle,
        hkept.requested.mono fun t e hlate he => (hlate he).trans hle⟩

/-! ### An example -/

/-- The call is answered, and its ACK comes a second later. -/
def exampleSince : List StatelessEvent :=
  [exampleCallResponse 200, .clock 1, .message (.request { method := .ack, callId := ['i'] }) 0, .clock 11]

/-- The watchdog takes the call out of the table ten seconds after the ACK. -/
theorem affinity_exampleAgent :
    (∃ sip rv url, exampleCallInvite = .message (.request sip) rv ∧ sip.method = .invite ∧ sip.callId = ['i'] ∧
        exampleAgent.goesTo exampleCallInvite = some (.sent url) ∧
        machine.Along (fun t e => e.requests ['i'] = true → t.goesTo e = some (.sent url))
          (exampleAgent.next exampleCallInvite) (exampleSince ++ [.watchdog true])) ∧
      ¬InTable ['i'] (machine.exec exampleAgent (exampleCallInvite :: (exampleSince ++ [.watchdog true]))) := by
  have hrun : machine.IsRun exampleAgent ([] ++ exampleCallInvite :: (exampleSince ++ [.watchdog true])) := by
    refine ⟨exampleAgent_initial, ⟨rfl, by decide⟩, ⟨rfl, by decide⟩, ⟨Nat.zero_le _, by decide⟩, ⟨rfl, by decide⟩,
      ⟨?_, by decide⟩, ⟨rfl, by decide⟩, trivial⟩
    exact (by decide : (1 : ℕ) ≤ 11)
  have hstay : machine.Always (InTable ['i']) (exampleAgent.next exampleCallInvite) exampleSince :=
    ⟨by decide, by decide, by decide, by decide, by change InTable _ _; decide⟩
  obtain ⟨sip, rv, url, heq, hmethod, hcallId, hsent, halong, -⟩ := affinity hrun rfl hstay
  exact ⟨⟨sip, rv, url, heq, hmethod, hcallId, hsent, halong⟩, by decide⟩

end StatelessAgent

end Ssp
