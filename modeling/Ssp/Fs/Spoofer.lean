import Ssp.Fs.Body
import Ssp.Fs.Coalesced
import Ssp.Fs.Lookup
import Ssp.Fs.Reads

/-!
# The spoofer

`fs-spoofer.cpp` is a stand-in for a FreeSWITCH server: it answers with four fixed messages, of
which only the one with the SIP profiles has the address in it that it was started with. The
content length of that one is computed from the size of the address.

`decodes_iff` says what an instance makes of them: it passes through the handshake, and ends with
the address and with the counters, unless it takes the status for the late reply to a
`reloadxml` of an earlier connection.
-/

namespace Ssp

namespace Spoofer

/-- `authRequest`. -/
def authRequest : Bytes := terminate '\n' ["Content-Type: auth/request".toList, []]

/-- `replyOk`. -/
def replyOk : Bytes :=
  terminate '\n' ["Content-Type: command/reply".toList, "Reply-Text: +OK accepted".toList, []]

/-- The lines of the body of `sofiaStatus`, without the empty one at the end. -/
def sofiaLines (spoofAddress : Bytes) : List Bytes :=
  ["                     Name          Type                                       Data      State".toList,
    "=================================================================================================".toList,
    "           ".toList ++ spoofAddress ++
      "         alias                                   internal      ALIASED".toList,
    "                 internal       profile          sip:mod_sofia@".toList ++ spoofAddress ++
      "      RUNNING (0)".toList,
    "                 external       profile          sip:mod_sofia@".toList ++ spoofAddress ++
      "      RUNNING (0)".toList,
    "    external::example.com       gateway                    sip:joeuser@example.com      NOREG".toList,
    "            internal-ipv6       profile                   sip:mod_sofia@[::1]:5060      RUNNING (0)".toList,
    "=================================================================================================".toList,
    "3 profiles 1 alias".toList]

/-- `783 + 3*(spoofAddress.size()-12)`, in `size_t`. -/
def sofiaLength (spoofAddress : Bytes) : UInt64 := 783 + 3 * (UInt64.ofNat spoofAddress.length - 12)

/-- `sofiaStatus`. -/
def sofiaStatus (spoofAddress : Bytes) : Bytes :=
  apiResponse (sofiaLength spoofAddress).toNat (terminate '\n' (sofiaLines spoofAddress ++ [[]]))

/-- The lines of the body of `apiStatus`, without the empty one at the end. -/
def statusLines : List Bytes :=
  ["UP 0 years, 1 day, 12 hours, 16 minutes, 39 seconds, 678 milliseconds, 919 microseconds".toList,
    "FreeSWITCH (Version 1.2.10 git f4efa96 2013-06-05 16:21:38Z) is ready".toList,
    "39 session(s) since startup".toList,
    "0 session(s) - 0 out of max 30 per sec".toList,
    "1000 session(s) max".toList,
    "min idle cpu 0.00/100.00".toList,
    "Current Stack Size/Max 240K/8192K".toList]

/-- `apiStatus`. -/
def apiStatus : Bytes := apiResponse 304 (terminate '\n' (statusLines ++ [[]]))

/-- The messages in the order in which they are sent. -/
def messages (spoofAddress : Bytes) : List Bytes :=
  [authRequest, replyOk, sofiaStatus spoofAddress, apiStatus]

/-! ## The messages are what the parser expects -/

/-- A line that is one line of a body. -/
def Clean (l : Bytes) : Prop := l ≠ [] ∧ '\n' ∉ l

instance (l : Bytes) : Decidable (Clean l) := inferInstanceAs (Decidable (_ ∧ _))

theorem Clean.append {u a v : Bytes} (hu : Clean u) (ha : '\n' ∉ a) (hv : Clean v) : Clean (u ++ a ++ v) := by
  obtain ⟨hne, hu⟩ := hu
  exact ⟨by simp [hne], by simp [hu, ha, hv.2]⟩

theorem length_sofiaLines (a : Bytes) : (terminate '\n' (sofiaLines a)).length = 747 + 3 * a.length := by
  have hlengths : (sofiaLines a).map (fun l => l.length + 1) =
      [94, 98, 11 + a.length + 71, 63 + a.length + 18, 63 + a.length + 18, 94, 100, 98, 19] := by
    unfold sofiaLines
    repeat rw [String.toList_ofList]
    simp only [List.map, List.length_append]
    rfl
  rw [length_terminate, hlengths]
  simp only [List.sum_cons, List.sum_nil]
  omega

theorem length_statusLines : (terminate '\n' statusLines).length = 304 := by
  unfold statusLines
  repeat rw [String.toList_ofList]
  decide +kernel

theorem clean_sofiaLines {a : Bytes} (h : '\n' ∉ a) : ∀ l ∈ sofiaLines a, Clean l := by
  unfold sofiaLines
  repeat rw [String.toList_ofList]
  repeat' refine List.forall_mem_cons.2 ⟨?_, ?_⟩
  -- The lines without the address, and those with it.
  any_goals decide +kernel
  all_goals exact .append (by decide +kernel) h (by decide +kernel)

theorem clean_statusLines : ∀ l ∈ statusLines, Clean l := by
  unfold statusLines
  repeat rw [String.toList_ofList]
  decide +kernel

theorem lines_terminate {ls : List Bytes} (h : ∀ l ∈ ls, Clean l) : lines (terminate '\n' ls) = ls := by
  have hsep : ∀ t ∈ ls, ∀ c ∈ t, (c == '\n') = false :=
    fun t ht c hc => beq_eq_false_iff_ne.2 fun heq => (h t ht).2 (heq ▸ hc)
  unfold lines
  rw [tokens_terminate rfl hsep, List.filter_eq_self]
  intro l hl
  simpa using (h l hl).1

/-- The empty line at the end of a body is dropped. -/
theorem lines_body {ls : List Bytes} (h : ∀ l ∈ ls, Clean l) : lines (terminate '\n' (ls ++ [[]])) = ls := by
  have hend : terminate '\n' (ls ++ [[]]) = terminate '\n' ls ++ '\n' :: [] := terminate_append ..
  rw [hend, lines_append_cons, lines_terminate h]
  exact List.append_nil ls

theorem authRequest_complete : (FsMessage.reset.append authRequest).bComplete = true ∧
    (FsMessage.reset.append authRequest).category = .auth ∧ (FsMessage.reset.append authRequest).type = .request := by
  unfold authRequest
  repeat rw [String.toList_ofList]
  decide +kernel

theorem replyOk_complete : (FsMessage.reset.append replyOk).bComplete = true ∧
    (FsMessage.reset.append replyOk).replyStatus = .ok ∧ (FsMessage.reset.append replyOk).type = .reply := by
  unfold replyOk
  repeat rw [String.toList_ofList]
  decide +kernel

theorem decoded_apiStatus : (FsMessage.reset.append apiStatus).Decoded (terminate '\n' statusLines) := by
  have hlines := lines_body clean_statusLines
  have hdecoded := FsMessage.decoded_of_lines (n := 304) (by decide) (by decide)
    ((congrArg (fun ls => (terminate '\n' ls).length) hlines).trans length_statusLines)
  rwa [hlines] at hdecoded

/-- The status of a spoofer. -/
theorem getFsStatus_of_decoded {m : FsMessage} (h : m.Decoded (terminate '\n' statusLines)) :
    m.getFsStatus = .parsed (some 0) (some 1000) := by
  have hlines : lines m.strContent = statusLines := h.strContent ▸ lines_terminate clean_statusLines
  unfold FsMessage.getFsStatus
  rw [hlines]
  unfold statusLines
  repeat rw [String.toList_ofList]
  rfl

/-! ## The row of the profile -/

/-- The address a spoofer is started with. -/
def addressOf (host port : Bytes) : Bytes := host ++ ':' :: port

/-- A host that can be told from what is around it: not empty, and without whitespace, `@` and `:`. -/
structure IsHost (host : Bytes) : Prop where
  isPart : IsPart host
  isWhitespace : ∀ c ∈ host, c.isWhitespace = false

theorem isWhitespace_addressOf {host port : Bytes} (hhost : IsHost host) (hport : IsDecimal port) :
    ∀ c ∈ addressOf host port, c.isWhitespace = false := by
  intro c hc
  rcases List.mem_append.1 hc with hc | hc
  · exact hhost.isWhitespace c hc
  · rcases List.mem_cons.1 hc with rfl | hc
    · rfl
    · have hdigit := hport.2 c hc
      cases hspace : c.isWhitespace with
      | false => rfl
      | true =>
        simp only [Char.isWhitespace, Bool.or_eq_true, decide_eq_true_eq] at hspace
        rcases hspace with ((rfl | rfl) | rfl) | rfl <;> exact absurd hdigit (by decide)

theorem newline_not_mem {host port : Bytes} (hhost : IsHost host) (hport : IsDecimal port) :
    '\n' ∉ addressOf host port :=
  fun hmem => absurd (isWhitespace_addressOf hhost hport _ hmem) (by decide)

/-- A word among blanks. -/
theorem words_append {t : Bytes} (hne : t ≠ []) (ht : ∀ c ∈ t, c.isWhitespace = false) (u v : Bytes) :
    words (u ++ ' ' :: (t ++ ' ' :: v)) = words u ++ t :: words v := by
  have htokens : words t = [t] := by
    refine tokens_of_forall hne fun c hc => ?_
    have hc := ht c hc
    simp only [Char.isWhitespace, Bool.or_eq_false_iff, decide_eq_false_iff_not] at hc
    simp [hc.1.1.1, hc.1.1.2]
  unfold words at htokens ⊢
  rw [tokens_append_cons rfl, tokens_append_cons rfl, htokens]
  rfl

section

variable {host port : Bytes}

/-- The row with the alias is about the address. -/
theorem isRowOf_alias (hhost : IsHost host) (hport : IsDecimal port) {row : Bytes}
    (hrow : (sofiaLines (addressOf host port))[2]? = some row) :
    words row ≠ [] ∧ isRowOf "internal".toList row = false := by
  have hsplit : row = "          ".toList ++ ' ' :: (addressOf host port ++ ' ' ::
      "        alias                                   internal      ALIASED".toList) := by
    rw [← Option.some_inj, ← hrow]
    unfold sofiaLines
    repeat rw [String.toList_ofList]
    simp
  have hwords := words_append (t := addressOf host port) (by simp [addressOf]) (isWhitespace_addressOf hhost hport)
    "          ".toList "        alias                                   internal      ALIASED".toList
  rw [← hsplit] at hwords
  have hblank : words "          ".toList = [] := by
    rw [String.toList_ofList]
    rfl
  rw [hblank, List.nil_append] at hwords
  have hne : addressOf host port ≠ "internal".toList := by
    intro heq
    have hmem : ':' ∈ addressOf host port := by simp [addressOf]
    rw [heq] at hmem
    exact absurd hmem (by decide)
  refine ⟨by simp [hwords], ?_⟩
  unfold isRowOf
  rw [hwords]
  exact decide_eq_false fun heq => hne (Option.some_inj.1 heq)

/-- The row of the profile. -/
theorem isRow_internal (hhost : IsHost host) (hport : IsDecimal port) (hlt : leadingDigits port < 2 ^ 31) {row : Bytes}
    (hrow : (sofiaLines (addressOf host port))[3]? = some row) :
    IsRow "internal".toList row host (atoi port) := by
  have hsplit : row = "                 internal       profile         ".toList ++ ' ' ::
      (("sip:mod_sofia@".toList ++ addressOf host port) ++ ' ' :: "     RUNNING (0)".toList) := by
    rw [← Option.some_inj, ← hrow]
    unfold sofiaLines
    repeat rw [String.toList_ofList]
    simp
  have hclean : ∀ c ∈ "sip:mod_sofia@".toList ++ addressOf host port, c.isWhitespace = false := by
    refine List.forall_mem_append.2 ⟨?_, isWhitespace_addressOf hhost hport⟩
    rw [String.toList_ofList]
    simp [Char.isWhitespace]
  have hwords := words_append (t := "sip:mod_sofia@".toList ++ addressOf host port) (by simp [addressOf]) hclean
    "                 internal       profile         ".toList "     RUNNING (0)".toList
  have hnames : words "                 internal       profile         ".toList =
      ["internal".toList, "profile".toList] := by
    repeat rw [String.toList_ofList]
    rfl
  rw [← hsplit, hnames] at hwords
  refine ⟨by simp [isRowOf, hwords], _, by rw [hwords]; rfl, "sip".toList, "mod_sofia".toList, by decide, by decide,
    hhost.isPart, .inr ⟨port, hport, (toNat_atoi_eq_iff hport).2 (by omega), ?_⟩⟩
  repeat rw [String.toList_ofList]
  rfl

/-- The profile of a spoofer is its address. -/
theorem getSipProfile_of_decoded (hhost : IsHost host) (hport : IsDecimal port) (hlt : leadingDigits port < 2 ^ 31)
    {m : FsMessage} (h : m.Decoded (terminate '\n' (sofiaLines (addressOf host port)))) :
    m.getSipProfile "internal".toList = .found host (atoi port) := by
  have hlines : lines m.strContent = sofiaLines (addressOf host port) :=
    h.strContent ▸ lines_terminate (clean_sofiaLines (newline_not_mem hhost hport))
  refine FsMessage.getSipProfile_of_row (show lines m.strContent = [_, _, _] ++ _ :: _ from hlines) ?_
    (isRow_internal hhost hport hlt rfl)
  simp only [List.forall_mem_cons]
  refine ⟨?_, ?_, isRowOf_alias hhost hport rfl, by simp⟩
  · repeat rw [String.toList_ofList]
    decide +kernel
  · repeat rw [String.toList_ofList]
    decide +kernel

end

/-! ## The content length -/

/-- The formula is right: the twelve characters of the address it was made for are taken out. -/
theorem toNat_sofiaLength {a : Bytes} (h : 747 + 3 * a.length < 2 ^ 32) :
    (sofiaLength a).toNat = 747 + 3 * a.length := by
  have heq : sofiaLength a = UInt64.ofNat (747 + 3 * a.length) := by
    unfold sofiaLength
    rw [UInt64.ofNat_add, UInt64.ofNat_mul]
    generalize UInt64.ofNat a.length = n
    change 783 + 3 * (n - 12) = 747 + 3 * n
    grind
  rw [heq, UInt64.toNat_ofNat_of_lt' (by rw [UInt64.size]; omega)]

theorem decoded_sofiaStatus {a : Bytes} (hnewline : '\n' ∉ a) (h : 747 + 3 * a.length < 2 ^ 32) :
    (FsMessage.reset.append (sofiaStatus a)).Decoded (terminate '\n' (sofiaLines a)) := by
  have hlines := lines_body (clean_sofiaLines hnewline)
  have hlength : (terminate '\n' (lines (terminate '\n' (sofiaLines a ++ [[]])))).length = (sofiaLength a).toNat := by
    rw [hlines, length_sofiaLines, toNat_sofiaLength h]
  have hn := toNat_sofiaLength h
  have hdecoded := FsMessage.decoded_of_lines (by omega) (by omega) hlength
  rwa [hlines] at hdecoded

/-- A length that does not fit is not read right, and the message waits for more. -/
theorem lt_of_complete_sofiaStatus {a : Bytes} (hnewline : '\n' ∉ a)
    (h : (FsMessage.reset.append (sofiaStatus a)).bComplete = true) : 747 + 3 * a.length < 2 ^ 32 := by
  obtain ⟨k, bs, hbody, -, hlength, -⟩ := FsMessage.complete_apiResponse h
  rw [body_apiResponse, lines_body (clean_sofiaLines hnewline)] at hbody
  split_ifs at hbody with hzero
  · -- The rows are no `Content-Length` lines.
    have hnone : body (sofiaLines a) = none := by
      unfold sofiaLines
      repeat rw [String.toList_ofList]
      rfl
    rw [hnone] at hbody
    cases hbody
  · obtain ⟨-, rfl⟩ := Prod.mk.inj (Option.some_inj.1 hbody)
    rw [← length_sofiaLines a, hlength]
    exact k.toNat_lt

end Spoofer

/-! ## What an instance makes of the messages -/

theorem FsMessage.Decoded.isApiResponse {m : FsMessage} {b : Bytes} (h : m.Decoded b) :
    FsInstance.isApiResponse m = true ∧ FsInstance.isDisconnectNotice m = false := by
  simp [FsInstance.isApiResponse, FsInstance.isDisconnectNotice, h.category, h.type]

namespace FsInstance

/-- A message is read at once, and what is written in return goes through. -/
def receive (fs : FsInstance) (M : Bytes) : FsInstance := (fs.step (.completed (.read (some M)) true)).fs

/-- Of each message, whether it is complete when it is read, and the state after it. -/
def transcript (fs : FsInstance) : List Bytes → List (Bool × ConnectionState)
  | [] => []
  | M :: Ms => ((fs.appendData M).fsMsg.bComplete, (fs.receive M).state) :: (fs.receive M).transcript Ms

/-- The messages of a spoofer are complete, one by one, and take an instance to its address and to
    the counters. -/
structure Decodes (fs : FsInstance) (host port : Bytes) : Prop where
  transcript : fs.transcript (Spoofer.messages (Spoofer.addressOf host port)) =
    [(true, .authenticating), (true, .obtainingSipConfiguration), (true, .queryingStatus), (true, .queryingStatus)]
  strSipAddress : ((Spoofer.messages (Spoofer.addressOf host port)).foldl receive fs).strSipAddress = host
  nSipPort : ((Spoofer.messages (Spoofer.addressOf host port)).foldl receive fs).nSipPort.toNat = leadingDigits port
  nCurrentSessions : ((Spoofer.messages (Spoofer.addressOf host port)).foldl receive fs).nCurrentSessions = 0
  nMaxSessions : ((Spoofer.messages (Spoofer.addressOf host port)).foldl receive fs).nMaxSessions = 1000

section

variable {fs : FsInstance} {M : Bytes}

theorem receive_of_processMessage {r : Reaction} (hreset : fs.fsMsg = .reset)
    (hcomplete : (FsMessage.reset.append M).bComplete = true)
    (hnotice : isDisconnectNotice (FsMessage.reset.append M) = false)
    (hr : { fs with ops := fs.ops.erase .read, fsMsg := FsMessage.reset.append M }.processMessage = some r) :
    fs.receive M = (r.finish true).fs := by
  have hmsg : { fs with ops := fs.ops.erase .read }.appendData M =
      { fs with ops := fs.ops.erase .read, fsMsg := FsMessage.reset.append M } := by
    rw [← hreset]
    rfl
  change (({ fs with ops := fs.ops.erase .read }.appendData M).processData true).fs = _
  rw [hmsg, processData_complete hcomplete hnotice, hr]

/-- A request or a reply that can be answered. -/
theorem receive_answered (hreset : fs.fsMsg = .reset) (hcomplete : (FsMessage.reset.append M).bComplete = true)
    (htype : (FsMessage.reset.append M).type = .request ∨ (FsMessage.reset.append M).type = .reply) :
    fs.receive M = { fs with ops := fs.ops.erase .read }.answered (FsMessage.reset.append M) := by
  have h := @readHandler_answered { fs with ops := fs.ops.erase .read } M true hreset hcomplete htype (.inl rfl)
  exact congrArg Outcome.fs h

theorem receive_authRequest (hstate : fs.state = .waitingForGreeting) (hreset : fs.fsMsg = .reset) :
    fs.receive Spoofer.authRequest =
      { fs with state := .authenticating, sent := fs.sent ++ [.auth], ops := .read :: fs.ops.erase .read } := by
  obtain ⟨hcomplete, hcategory, htype⟩ := Spoofer.authRequest_complete
  rw [receive_answered hreset hcomplete (.inl htype)]
  simp only [answered, hstate, hcategory, ne_eq, not_true_eq_false, if_false, asyncReadSome]

theorem receive_replyOk (hstate : fs.state = .authenticating) (hreset : fs.fsMsg = .reset) :
    fs.receive Spoofer.replyOk =
      { fs with state := .obtainingSipConfiguration, sent := fs.sent ++ [.sofiaStatus]
                ops := .read :: fs.ops.erase .read } := by
  obtain ⟨hcomplete, hok, htype⟩ := Spoofer.replyOk_complete
  rw [receive_answered hreset hcomplete (.inr htype)]
  simp only [answered, hstate, hok, ne_eq, not_true_eq_false, if_false, asyncReadSome]

/-- The profile is taken over. -/
theorem receive_sofiaStatus {host port : Bytes} (hhost : Spoofer.IsHost host) (hport : IsDecimal port)
    (hlt : leadingDigits port < 2 ^ 31) (hstate : fs.state = .obtainingSipConfiguration) (hreset : fs.fsMsg = .reset)
    (hdecoded : (FsMessage.reset.append M).Decoded
      (terminate '\n' (Spoofer.sofiaLines (Spoofer.addressOf host port)))) :
    fs.receive M =
      { fs with strSipAddress := host, nSipPort := atoi port, state := .queryingStatus, sent := fs.sent ++ [.status]
                ops := .read :: fs.ops.erase .read } := by
  obtain ⟨hapi, hnotice⟩ := hdecoded.isApiResponse
  have hprofile := Spoofer.getSipProfile_of_decoded hhost hport hlt hdecoded
  have hr : { fs with ops := fs.ops.erase .read, fsMsg := FsMessage.reset.append M }.processMessage =
      some { fs := { fs with ops := fs.ops.erase .read, fsMsg := FsMessage.reset.append M, strSipAddress := host
                             nSipPort := atoi port, state := .queryingStatus }
             out := some .status, bReadAgain := true, notified := some (fs.strAddress, host) } := by
    simp only [processMessage, hstate, hapi, if_true, hprofile]
  rw [receive_of_processMessage hreset hdecoded.bComplete hnotice hr]
  simp [Reaction.finish, asyncReadSome, hreset]

/-- The counters are taken over, unless the reply is taken for that to a `reloadxml`. -/
theorem receive_apiStatus (hstate : fs.state = .queryingStatus) (hreset : fs.fsMsg = .reset) :
    (fs.receive Spoofer.apiStatus).state = .queryingStatus ∧
      (fs.receive Spoofer.apiStatus).strSipAddress = fs.strSipAddress ∧
      (fs.receive Spoofer.apiStatus).nSipPort = fs.nSipPort ∧
      (fs.receive Spoofer.apiStatus).nCurrentSessions = (if fs.bReloadingXml then fs.nCurrentSessions else 0) ∧
      (fs.receive Spoofer.apiStatus).nMaxSessions = (if fs.bReloadingXml then fs.nMaxSessions else 1000) := by
  have hdecoded := Spoofer.decoded_apiStatus
  obtain ⟨hapi, hnotice⟩ := hdecoded.isApiResponse
  have hstatus := Spoofer.getFsStatus_of_decoded hdecoded
  cases hreload : fs.bReloadingXml with
  | true =>
    have hr : { fs with ops := fs.ops.erase .read, fsMsg := FsMessage.reset.append Spoofer.apiStatus }.processMessage =
        some { fs := { fs with ops := fs.ops.erase .read, fsMsg := FsMessage.reset.append Spoofer.apiStatus
                               bReloadingXml := false } } := by
      simp only [processMessage, hstate, hapi, if_true, hreload]
    rw [receive_of_processMessage hreset hdecoded.bComplete hnotice hr]
    simp [Reaction.finish, hstate]
  | false =>
    obtain ⟨bDisconnected, bNotifyReconnect, hr⟩ : ∃ bDisconnected bNotifyReconnect,
        { fs with ops := fs.ops.erase .read, fsMsg := FsMessage.reset.append Spoofer.apiStatus }.processMessage =
          some { fs := { fs with ops := fs.ops.erase .read, fsMsg := FsMessage.reset.append Spoofer.apiStatus
                                 nCurrentSessions := 0, nMaxSessions := 1000, bDisconnected := bDisconnected }
                 bSetTimer := true, bNotifyReconnect := bNotifyReconnect } := by
      simp only [processMessage, hstate, hapi, if_true, hreload, Bool.false_eq_true, if_false, hstatus]
      split_ifs
      · exact ⟨false, true, rfl⟩
      · exact ⟨fs.bDisconnected, false, rfl⟩
    rw [receive_of_processMessage hreset hdecoded.bComplete hnotice hr]
    simp [Reaction.finish, startTimer, hstate]

/-- The first two messages. -/
theorem receive_handshake (hstate : fs.state = .waitingForGreeting) (hreset : fs.fsMsg = .reset) :
    (fs.receive Spoofer.authRequest).receive Spoofer.replyOk =
      { fs with state := .obtainingSipConfiguration, sent := fs.sent ++ [.auth] ++ [.sofiaStatus]
                ops := .read :: fs.ops.erase .read } := by
  have hfirst := receive_authRequest hstate hreset
  have hstate₁ : (fs.receive Spoofer.authRequest).state = .authenticating := by rw [hfirst]
  have hreset₁ : (fs.receive Spoofer.authRequest).fsMsg = .reset := by rw [hfirst, hreset]
  rw [receive_replyOk hstate₁ hreset₁, hfirst, List.erase_cons_head]

/-- After them, the instance asks for the profile. -/
theorem state_handshake (hstate : fs.state = .waitingForGreeting) (hreset : fs.fsMsg = .reset) :
    ((fs.receive Spoofer.authRequest).receive Spoofer.replyOk).state = .obtainingSipConfiguration ∧
      ((fs.receive Spoofer.authRequest).receive Spoofer.replyOk).fsMsg = .reset := by
  rw [receive_handshake hstate hreset]
  exact ⟨rfl, hreset⟩

theorem transcript_messages (hstate : fs.state = .waitingForGreeting) (hreset : fs.fsMsg = .reset) (a : Bytes) :
    fs.transcript (Spoofer.messages a) = (true, .authenticating) :: (true, .obtainingSipConfiguration) ::
      ((fs.receive Spoofer.authRequest).receive Spoofer.replyOk).transcript
        [Spoofer.sofiaStatus a, Spoofer.apiStatus] := by
  have hreset₁ : (fs.receive Spoofer.authRequest).fsMsg = .reset := by
    rw [receive_authRequest hstate hreset, hreset]
  unfold Spoofer.messages
  rw [transcript, transcript, appendData_of_reset hreset, appendData_of_reset hreset₁, Spoofer.authRequest_complete.1,
    Spoofer.replyOk_complete.1, (state_handshake hstate hreset).1, receive_authRequest hstate hreset]

end

section

variable {fs : FsInstance} {host port : Bytes}

/-- The message with the profile is complete only if its length can be read. -/
theorem lt_of_decodes (hhost : Spoofer.IsHost host) (hport : IsDecimal port) (hstate : fs.state = .waitingForGreeting)
    (hreset : fs.fsMsg = .reset) (h : fs.Decodes host port) :
    747 + 3 * (Spoofer.addressOf host port).length < 2 ^ 32 := by
  have htranscript := h.transcript
  rw [transcript_messages hstate hreset, transcript, appendData_of_reset (state_handshake hstate hreset).2]
    at htranscript
  simp only [List.cons.injEq, Prod.mk.injEq, true_and] at htranscript
  obtain ⟨⟨hcomplete, -⟩, -⟩ := htranscript
  exact Spoofer.lt_of_complete_sofiaStatus (Spoofer.newline_not_mem hhost hport) hcomplete

theorem decodes_iff_of_lt (hhost : Spoofer.IsHost host) (hport : IsDecimal port) (hlt : leadingDigits port < 2 ^ 31)
    (hstate : fs.state = .waitingForGreeting) (hreset : fs.fsMsg = .reset)
    (hlength : 747 + 3 * (Spoofer.addressOf host port).length < 2 ^ 32) :
    fs.Decodes host port ↔ (fs.bReloadingXml = true → fs.nCurrentSessions = 0 ∧ fs.nMaxSessions = 1000) := by
  have hdecoded := Spoofer.decoded_sofiaStatus (Spoofer.newline_not_mem hhost hport) hlength
  obtain ⟨hstate₂, hreset₂⟩ := state_handshake hstate hreset
  have htwo := receive_handshake hstate hreset
  have hthree := receive_sofiaStatus hhost hport hlt hstate₂ hreset₂ hdecoded
  have hcomplete₃ : (((fs.receive Spoofer.authRequest).receive Spoofer.replyOk).appendData
      (Spoofer.sofiaStatus (Spoofer.addressOf host port))).fsMsg.bComplete = true := by
    rw [appendData_of_reset hreset₂]
    exact hdecoded.bComplete
  generalize hfs₃ : ((fs.receive Spoofer.authRequest).receive Spoofer.replyOk).receive
    (Spoofer.sofiaStatus (Spoofer.addressOf host port)) = fs₃ at hthree
  have hstate₃ : fs₃.state = .queryingStatus := by rw [hthree]
  have hreset₃ : fs₃.fsMsg = .reset := by rw [hthree, hreset₂]
  have hcomplete₄ : (fs₃.appendData Spoofer.apiStatus).fsMsg.bComplete = true := by
    rw [appendData_of_reset hreset₃]
    exact Spoofer.decoded_apiStatus.bComplete
  obtain ⟨hstate₄, haddress, hport₄, hcurrent, hmax⟩ := receive_apiStatus hstate₃ hreset₃
  have hlast : (Spoofer.messages (Spoofer.addressOf host port)).foldl receive fs = fs₃.receive Spoofer.apiStatus := by
    rw [← hfs₃]
    rfl
  have hreload₃ : fs₃.bReloadingXml = fs.bReloadingXml := by rw [hthree, htwo]
  have hcurrent₃ : fs₃.nCurrentSessions = fs.nCurrentSessions := by rw [hthree, htwo]
  have hmax₃ : fs₃.nMaxSessions = fs.nMaxSessions := by rw [hthree, htwo]
  rw [hreload₃, hcurrent₃] at hcurrent
  rw [hreload₃, hmax₃] at hmax
  constructor
  · intro h hreload
    have hzero := h.nCurrentSessions
    have hthousand := h.nMaxSessions
    rw [hlast] at hzero hthousand
    rw [hzero, if_pos hreload] at hcurrent
    rw [hthousand, if_pos hreload] at hmax
    exact ⟨hcurrent.symm, hmax.symm⟩
  · intro hcounters
    refine ⟨?_, ?_, ?_, ?_, ?_⟩
    · rw [transcript_messages hstate hreset, transcript, transcript, transcript, hcomplete₃, hfs₃, hstate₃, hcomplete₄,
        hstate₄]
    · rw [hlast, haddress, hthree]
    · rw [hlast, hport₄, hthree]
      exact (toNat_atoi_eq_iff hport).2 (by omega)
    · rw [hlast, hcurrent]
      split_ifs with hreload
      · exact (hcounters hreload).1
      · rfl
    · rw [hlast, hmax]
      split_ifs with hreload
      · exact (hcounters hreload).2
      · rfl

/-- **The spoofer.** From the greeting on, the messages of a spoofer are what an instance takes them
    for, exactly if the instance does not wait for the reply to a `reloadxml`, or has the counters
    already, and the message with the profile has a length of no more than 32 bits. -/
theorem decodes_iff (hhost : Spoofer.IsHost host) (hport : IsDecimal port) (hlt : leadingDigits port < 2 ^ 31)
    (hstate : fs.state = .waitingForGreeting) (hreset : fs.fsMsg = .reset) :
    fs.Decodes host port ↔ (fs.bReloadingXml = true → fs.nCurrentSessions = 0 ∧ fs.nMaxSessions = 1000) ∧
      747 + 3 * (Spoofer.addressOf host port).length < 2 ^ 32 := by
  constructor
  · intro h
    have hlength := lt_of_decodes hhost hport hstate hreset h
    exact ⟨(decodes_iff_of_lt hhost hport hlt hstate hreset hlength).1 h, hlength⟩
  · rintro ⟨hcounters, hlength⟩
    exact (decodes_iff_of_lt hhost hport hlt hstate hreset hlength).2 hcounters

end

/-- A spoofer of the shortest address is understood by a new instance. -/
theorem decodes_new : ({ new "fs".toList 8021 1000 with state := .waitingForGreeting } : FsInstance).Decodes ['h'] ['1'] :=
  (decodes_iff ⟨by decide, List.forall_mem_singleton.2 rfl⟩ (by decide) (by decide) rfl rfl).2 ⟨by decide, by decide⟩

/-- A server that goes down while the reply to a `reloadxml` is awaited, and comes back. -/
def reloadLost : List FsEvent :=
  Tracked.handshake ++ [Tracked.profileReply, .reloadxml true,
    .completed (.read (some "Content-Type: text/disconnect-notice\nContent-Length: 2\n\nx\n".toList)) true,
    .completed (.read none) true, .completed (.timer 1000 true) true, .completed (.resolve (some 0)) true,
    .completed (.connect 0 true) true]

theorem along_reloadLost : machine.Along machine.enabled (new "fs".toList 8021 1000) reloadLost := by
  unfold reloadLost Tracked.handshake Tracked.profileReply
  repeat rw [String.toList_ofList]
  decide +kernel

/-- The flag and the counters are what they were when the server went down. -/
theorem exec_reloadLost : machine.exec (new "fs".toList 8021 1000) reloadLost =
    { strAddress := "fs".toList, nEventSocketPort := 8021, healthCheckMsecs := 1000, bDisconnected := true
      bReloadingXml := true, strSipAddress := "h".toList, nSipPort := 5060, state := .waitingForGreeting
      ops := [.read], sent := [.auth, .sofiaStatus, .status, .reloadxml] } := by
  unfold reloadLost Tracked.handshake Tracked.profileReply
  repeat rw [String.toList_ofList]
  decide +kernel

theorem not_decodes_reloadLost :
    ¬∀ (fs : FsInstance) (host port : Bytes), machine.Reachable fs → fs.state = .waitingForGreeting →
      fs.fsMsg = .reset → Spoofer.IsHost host → IsDecimal port → leadingDigits port < 2 ^ 31 →
        fs.Decodes host port := by
  intro h
  have hnew : machine.Reachable (new "fs".toList 8021 1000) := .init ⟨_, _, _, rfl⟩
  have hreachable := hnew.exec along_reloadLost
  rw [exec_reloadLost] at hreachable
  have hhost : Spoofer.IsHost ['h'] := ⟨by decide, List.forall_mem_singleton.2 rfl⟩
  have hdecodes := h _ ['h'] ['1'] hreachable rfl rfl hhost (by decide) (by decide)
  have hcounters := (decodes_iff_of_lt hhost (by decide) (by decide) rfl rfl (by decide)).1 hdecodes rfl
  exact absurd hcounters.2 (by decide)

end FsInstance

end Ssp
