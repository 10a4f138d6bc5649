import Ssp.Fs.Instance
import Ssp.Lib.Decimal

/-!
# What is looked up in a reply

`getSipProfile` and `getFsStatus` go through the words of the content with iterators that they
move without looking at the end.

* `statusRight_iff` says for which contents, and with which counters before, `getFsStatus` returns
  two numbers of the reply or leaves both counters alone.
* `lookupRight_iff` says for which contents `getSipProfile` comes to an end, and with the address
  of a row of the profile.
-/

namespace Ssp

/-- The words between blanks. -/
def blankWords (s : Bytes) : List Bytes := tokens (· == ' ') s

/-- The words between blanks and tabs. -/
def words (s : Bytes) : List Bytes := tokens (fun c => c == ' ' || c == '\t') s

/-- The parts of a contact. -/
def contactParts (s : Bytes) : List Bytes := tokens (fun c => c == '@' || c == ':') s

/-! ## The counters -/

/-- The word has a digit. -/
def hasDigit (word : Bytes) : Bool := word.any Char.isDigit

theorem IsDecimal.hasDigit {w : Bytes} (h : IsDecimal w) : hasDigit w = true := by
  obtain ⟨c, w, rfl⟩ := List.exists_cons_of_ne_nil h.1
  exact List.any_eq_true.2 ⟨c, List.mem_cons_self, h.2 c List.mem_cons_self⟩

namespace FsMessage

/-- `getFsStatus` with the counters it is given: what it returns, and the counters then. -/
def readFsStatus (m : FsMessage) (nCurrentSessions nMaxSessions : UInt32) : Option (Bool × UInt32 × UInt32) :=
  match m.getFsStatus with
  | .asserts => none
  | .parsed current max =>
    some (current.isSome && max.isSome, current.getD nCurrentSessions, max.getD nMaxSessions)

/-- The first word of a line of the content, from `0` on. -/
def firstWord (m : FsMessage) (i : ℕ) : Option Bytes := (lines m.strContent)[i]?.bind fun l => (blankWords l).head?

/-- The number is that of the word, if it is less than `2 ^ 31`. -/
def Reads (word : Bytes) (n : UInt32) : Prop := leadingDigits word < 2 ^ 31 → n.toNat = leadingDigits word

/-- `getFsStatus` returns `true`, and the counters are the numbers at the beginning of the fourth
    and the fifth line; or `false`, and the counters are what they were. -/
def StatusRight (m : FsMessage) (nCurrentSessions nMaxSessions : UInt32) : Prop :=
  (∃ current max w₃ w₄, m.readFsStatus nCurrentSessions nMaxSessions = some (true, current, max) ∧
    m.firstWord 3 = some w₃ ∧ m.firstWord 4 = some w₄ ∧ IsDecimal w₃ ∧ IsDecimal w₄ ∧
    Reads w₃ current ∧ Reads w₄ max) ∨
  m.readFsStatus nCurrentSessions nMaxSessions = some (false, nCurrentSessions, nMaxSessions)

/-- The content has less than five lines; or the fourth line begins with a word without a digit,
    or the fourth and the fifth with a decimal number each; or the fourth line begins with what
    `nCurrentSessions` is already, and the fifth with a word without a digit. -/
def StatusReadable (m : FsMessage) (nCurrentSessions : UInt32) : Prop :=
  (lines m.strContent).length < 5 ∨ ∃ w₃, m.firstWord 3 = some w₃ ∧
    (hasDigit w₃ = false ∨ (IsDecimal w₃ ∧ ∃ w₄, m.firstWord 4 = some w₄ ∧ IsDecimal w₄) ∨
      atoi w₃ = nCurrentSessions ∧ ∃ w₄, m.firstWord 4 = some w₄ ∧ hasDigit w₄ = false)

theorem reads_atoi {w : Bytes} (h : IsDecimal w) : Reads w (atoi w) :=
  fun hlt => (toNat_atoi_eq_iff h).2 (by omega)

section

variable {m : FsMessage} {current max : UInt32}

theorem parseLeadingInteger_of_none {l : Bytes} (h : (blankWords l).head? = none) :
    parseLeadingInteger l = none := by
  unfold parseLeadingInteger
  rw [show tokens (· == ' ') l = [] from List.head?_eq_none_iff.1 h]

theorem parseLeadingInteger_of_some {l w : Bytes} (h : (blankWords l).head? = some w) :
    parseLeadingInteger l = some (if hasDigit w then some (atoi w) else none) := by
  obtain ⟨ws, hws⟩ := List.head?_eq_some_iff.1 h
  unfold parseLeadingInteger
  rw [show tokens (· == ' ') l = w :: ws from hws]
  rfl

/-- A content with less than five lines. -/
theorem readFsStatus_of_short (h : (lines m.strContent).length < 5) :
    m.readFsStatus current max = some (false, current, max) := by
  have hnone : m.getFsStatus = .parsed none none := by
    unfold getFsStatus
    split
    next heq =>
      rw [heq] at h
      simp only [List.length_cons] at h
      omega
    next => rfl
  unfold readFsStatus
  rw [hnone]
  rfl

/-- The two lines that are looked at. -/
theorem exists_getFsStatus (h : ¬(lines m.strContent).length < 5) : ∃ l₃ l₄, m.firstWord 3 = (blankWords l₃).head? ∧
    m.firstWord 4 = (blankWords l₄).head? ∧ m.getFsStatus =
      match parseLeadingInteger l₃ with
      | none => .asserts
      | some none => .parsed none none
      | some (some current) =>
        match parseLeadingInteger l₄ with
        | none => .asserts
        | some max => .parsed (some current) max := by
  unfold firstWord getFsStatus
  match heq : lines m.strContent with
  | l₀ :: l₁ :: l₂ :: l₃ :: l₄ :: ls => exact ⟨l₃, l₄, rfl, rfl, rfl⟩
  | [] | [_] | [_, _] | [_, _, _] | [_, _, _, _] =>
    rw [heq] at h
    simp at h

theorem readFsStatus_of_no_word (h : ¬(lines m.strContent).length < 5) (h₃ : m.firstWord 3 = none) :
    m.readFsStatus current max = none := by
  obtain ⟨l₃, l₄, hl₃, -, hget⟩ := exists_getFsStatus h
  rw [parseLeadingInteger_of_none (hl₃.symm.trans h₃)] at hget
  unfold readFsStatus
  rw [hget]

theorem readFsStatus_of_no_digit (h : ¬(lines m.strContent).length < 5) {w₃ : Bytes} (h₃ : m.firstWord 3 = some w₃)
    (hw₃ : hasDigit w₃ = false) : m.readFsStatus current max = some (false, current, max) := by
  obtain ⟨l₃, l₄, hl₃, -, hget⟩ := exists_getFsStatus h
  rw [parseLeadingInteger_of_some (hl₃.symm.trans h₃), hw₃] at hget
  unfold readFsStatus
  rw [hget]
  rfl

/-- The first counter is set before the fifth line is looked at. -/
theorem readFsStatus_of_digit (h : ¬(lines m.strContent).length < 5) {w₃ : Bytes} (h₃ : m.firstWord 3 = some w₃)
    (hw₃ : hasDigit w₃ = true) : m.readFsStatus current max = (m.firstWord 4).map fun w₄ =>
      if hasDigit w₄ then (true, atoi w₃, atoi w₄) else (false, atoi w₃, max) := by
  obtain ⟨l₃, l₄, hl₃, hl₄, hget⟩ := exists_getFsStatus h
  rw [parseLeadingInteger_of_some (hl₃.symm.trans h₃), hw₃] at hget
  unfold readFsStatus
  rw [hget, hl₄]
  cases hword : (blankWords l₄).head? with
  | none => rw [parseLeadingInteger_of_none hword]; rfl
  | some w₄ =>
    rw [parseLeadingInteger_of_some hword, Option.map_some]
    cases hw₄ : hasDigit w₄ <;> rfl

/-- **The counters.** -/
theorem statusRight_iff (m : FsMessage) (nCurrentSessions nMaxSessions : UInt32) :
    m.StatusRight nCurrentSessions nMaxSessions ↔ m.StatusReadable nCurrentSessions := by
  unfold StatusRight StatusReadable
  by_cases hshort : (lines m.strContent).length < 5
  · exact iff_of_true (.inr (readFsStatus_of_short hshort)) (.inl hshort)
  · rw [or_iff_right hshort]
    cases h₃ : m.firstWord 3 with
    | none =>
      rw [readFsStatus_of_no_word hshort h₃]
      simp
    | some w₃ =>
      cases hw₃ : hasDigit w₃ with
      | false => exact iff_of_true (.inr (readFsStatus_of_no_digit hshort h₃ hw₃)) ⟨w₃, rfl, .inl hw₃⟩
      | true =>
        rw [readFsStatus_of_digit hshort h₃ hw₃]
        cases h₄ : m.firstWord 4 with
        | none => simp [hw₃]
        | some w₄ =>
          rw [Option.map_some]
          cases hw₄ : hasDigit w₄ with
          | true =>
            -- Both counters are set.
            constructor
            · rintro (⟨current, max, _, _, -, ⟨⟩, ⟨⟩, hdec₃, hdec₄, -⟩ | hfalse)
              · exact ⟨w₃, rfl, .inr (.inl ⟨hdec₃, w₄, rfl, hdec₄⟩)⟩
              · simp at hfalse
            · rintro ⟨_, ⟨⟩, hno | ⟨hdec₃, _, ⟨⟩, hdec₄⟩ | ⟨-, _, ⟨⟩, hno⟩⟩
              · exact absurd (hw₃.symm.trans hno) (by decide)
              · exact .inl ⟨_, _, w₃, w₄, rfl, rfl, rfl, hdec₃, hdec₄, reads_atoi hdec₃, reads_atoi hdec₄⟩
              · exact absurd (hw₄.symm.trans hno) (by decide)
          | false =>
            -- Only the first one is set.
            constructor
            · rintro (⟨current, max, _, _, htrue, -⟩ | hfalse)
              · simp at htrue
              · obtain ⟨hcurrent, -⟩ := Prod.mk.inj (Prod.mk.inj (Option.some.inj hfalse)).2
                exact ⟨w₃, rfl, .inr (.inr ⟨hcurrent, w₄, rfl, hw₄⟩)⟩
            · rintro ⟨_, ⟨⟩, hno | ⟨-, _, ⟨⟩, hdec₄⟩ | ⟨hcurrent, -⟩⟩
              · exact absurd (hw₃.symm.trans hno) (by decide)
              · exact absurd (hw₄.symm.trans hdec₄.hasDigit) (by decide)
              · exact .inr (by rw [← hcurrent]; rfl)

end

/-- A reply with a counter that cannot be read, after one that can. -/
def exampleHalfStatus : FsMessage :=
  reset.append "Content-Type: api/response\nContent-Length: 15\n\na\nb\nc\n5 s\nno m\n".toList

/-- The first counter is set, and `false` is returned. -/
theorem not_statusRight : ¬∀ (m : FsMessage) (nCurrentSessions nMaxSessions : UInt32),
    m.StatusRight nCurrentSessions nMaxSessions := by
  intro h
  have hread : exampleHalfStatus.readFsStatus 0 9 = some (false, 5, 9) := by decide
  rcases h exampleHalfStatus 0 9 with ⟨current, max, _, _, htrue, -⟩ | hfalse
  · rw [hread] at htrue
    simp at htrue
  · rw [hread] at hfalse
    simp at hfalse

end FsMessage

/-- The counters of an instance after a status reply. -/
theorem FsInstance.processMessage_readFsStatus {fs : FsInstance} (hstate : fs.state = .queryingStatus)
    (hapi : isApiResponse fs.fsMsg = true) (hreload : fs.bReloadingXml = false) :
    fs.processMessage.map (fun r => (r.fs.nCurrentSessions, r.fs.nMaxSessions)) =
      (fs.fsMsg.readFsStatus fs.nCurrentSessions fs.nMaxSessions).map Prod.snd := by
  unfold processMessage FsMessage.readFsStatus
  simp only [hstate, hapi, hreload, if_true, Bool.false_eq_true, if_false]
  cases fs.fsMsg.getFsStatus with
  | asserts => rfl
  | parsed current max =>
    dsimp only
    split_ifs <;> rfl

/-! ## The profile -/

/-- A part of a contact: not empty, and without `@` and `:`. -/
def IsPart (s : Bytes) : Prop := s ≠ [] ∧ '@' ∉ s ∧ ':' ∉ s

instance (s : Bytes) : Decidable (IsPart s) := inferInstanceAs (Decidable (_ ∧ _))

/-- `scheme:user@host` or `scheme:user@host:port`, the port `5060` if there is none. -/
def IsContact (contact host : Bytes) (port : UInt32) : Prop :=
  ∃ scheme user, IsPart scheme ∧ IsPart user ∧ IsPart host ∧
    (contact = scheme ++ ':' :: (user ++ '@' :: host) ∧ port = 5060 ∨
      ∃ digits, IsDecimal digits ∧ port.toNat = leadingDigits digits ∧
        contact = scheme ++ ':' :: (user ++ '@' :: (host ++ ':' :: digits)))

/-- What a contact is cut at. -/
def isSeparator (c : Char) : Bool := c == '@' || c == ':'

/-- The contact has three parts with `:` and `@` between them, and maybe a decimal port after another `:`. -/
def HasForm (contact : Bytes) : Prop :=
  contact.filter isSeparator = [':', '@'] ∧ (contactParts contact).length = 3 ∨
    contact.filter isSeparator = [':', '@', ':'] ∧ (contactParts contact).length = 4 ∧
      ∀ port ∈ (contactParts contact)[3]?, IsDecimal port ∧ leadingDigits port < 2 ^ 32

instance (contact : Bytes) : Decidable (HasForm contact) := inferInstanceAs (Decidable (_ ∨ _))

/-- The row is about the profile. -/
def isRowOf (profile row : Bytes) : Bool := (words row).head? = some profile

/-- The port that is read of the parts after the host. -/
def portOf : List Bytes → UInt32
  | [] => 5060
  | port :: _ => atoi port

/-- The address and port in a row of the profile. -/
def IsRow (profile row address : Bytes) (port : UInt32) : Prop :=
  isRowOf profile row = true ∧ ∃ contact, (words row)[2]? = some contact ∧ IsContact contact address port

theorem contactParts_of_part {u : Bytes} (hu : IsPart u) : contactParts u = [u] := by
  refine tokens_of_forall hu.1 fun c hc => ?_
  have hat : c ≠ '@' := fun h => hu.2.1 (h ▸ hc)
  have hcolon : c ≠ ':' := fun h => hu.2.2 (h ▸ hc)
  simp [hat, hcolon]

theorem contactParts_cons {c : Char} (hc : c = '@' ∨ c = ':') {u : Bytes} (hu : IsPart u) (v : Bytes) :
    contactParts (u ++ c :: v) = u :: contactParts v := by
  have happ : contactParts (u ++ c :: v) = contactParts u ++ contactParts v :=
    tokens_append_cons (by rcases hc with rfl | rfl <;> rfl) u v
  rw [happ, contactParts_of_part hu]
  rfl

/-- The parts of a contact without a port, and of one with a port. -/
theorem contactParts_of_host {scheme user host : Bytes} (hscheme : IsPart scheme) (huser : IsPart user)
    (hhost : IsPart host) : contactParts (scheme ++ ':' :: (user ++ '@' :: host)) = [scheme, user, host] := by
  rw [contactParts_cons (.inr rfl) hscheme, contactParts_cons (.inl rfl) huser, contactParts_of_part hhost]

theorem contactParts_of_port {scheme user host port : Bytes} (hscheme : IsPart scheme) (huser : IsPart user)
    (hhost : IsPart host) (hport : IsPart port) :
    contactParts (scheme ++ ':' :: (user ++ '@' :: (host ++ ':' :: port))) = [scheme, user, host, port] := by
  rw [contactParts_cons (.inr rfl) hscheme, contactParts_cons (.inl rfl) huser, contactParts_cons (.inr rfl) hhost,
    contactParts_of_part hport]

theorem isPart_of_isDecimal {s : Bytes} (h : IsDecimal s) : IsPart s :=
  ⟨h.1, fun hmem => absurd (h.2 _ hmem) (by decide), fun hmem => absurd (h.2 _ hmem) (by decide)⟩

theorem isPart_iff {u : Bytes} : IsPart u ↔ u ≠ [] ∧ ∀ c ∈ u, isSeparator c = false := by
  refine and_congr_right fun _ => ⟨fun h c hc => ?_, fun h => ⟨fun hat => ?_, fun hcolon => ?_⟩⟩
  · have hat : c ≠ '@' := fun heq => h.1 (heq ▸ hc)
    have hcolon : c ≠ ':' := fun heq => h.2 (heq ▸ hc)
    simp [isSeparator, hat, hcolon]
  · exact absurd (h _ hat) (by decide)
  · exact absurd (h _ hcolon) (by decide)

theorem filter_of_part {u : Bytes} (hu : IsPart u) : u.filter isSeparator = [] :=
  List.filter_eq_nil_iff.2 fun c hc => by simp [(isPart_iff.1 hu).2 c hc]

theorem filter_cons {c : Char} (hc : isSeparator c = true) {u : Bytes} (hu : IsPart u) (v : Bytes) :
    (u ++ c :: v).filter isSeparator = c :: v.filter isSeparator := by
  rw [List.filter_append, filter_of_part hu, List.filter_cons_of_pos hc, List.nil_append]

/-- The parts of a contact of that form. -/
theorem IsContact.parts {contact host : Bytes} {port : UInt32} (h : IsContact contact host port) :
    HasForm contact ∧ ∃ scheme user rest, contactParts contact = scheme :: user :: host :: rest ∧
      portOf rest = port := by
  obtain ⟨scheme, user, hscheme, huser, hhost, ⟨rfl, rfl⟩ | ⟨digits, hdigits, hport, rfl⟩⟩ := h
  · have hparts := contactParts_of_host hscheme huser hhost
    refine ⟨.inl ⟨?_, by rw [hparts]; rfl⟩, scheme, user, [], hparts, rfl⟩
    rw [filter_cons rfl hscheme, filter_cons rfl huser, filter_of_part hhost]
  · have hlt : leadingDigits digits < 2 ^ 32 := hport ▸ port.toNat_lt
    have hparts := contactParts_of_port hscheme huser hhost (isPart_of_isDecimal hdigits)
    refine ⟨.inr ⟨?_, by rw [hparts]; rfl, ?_⟩, scheme, user, [digits], hparts, ?_⟩
    · rw [filter_cons rfl hscheme, filter_cons rfl huser, filter_cons rfl hhost,
        filter_of_part (isPart_of_isDecimal hdigits)]
    · rw [hparts]
      rintro _ ⟨⟩
      exact ⟨hdigits, hlt⟩
    · exact UInt32.toNat.inj (((toNat_atoi_eq_iff hdigits).2 hlt).trans hport.symm)

/-- A text with a part in each place, before its first separator. -/
theorem exists_part {contact : Bytes} {c : Char} {seps : Bytes} (hseps : contact.filter isSeparator = c :: seps)
    (hlength : (contactParts contact).length = seps.length + 2) : ∃ u v, contact = u ++ c :: v ∧ IsPart u ∧
      v.filter isSeparator = seps ∧ (contactParts v).length = seps.length + 1 := by
  obtain ⟨u, v, heq, hne, hu, hv, hrest⟩ := exists_token_of_length hseps hlength
  exact ⟨u, v, heq, isPart_iff.2 ⟨hne, hu⟩, hv, hrest⟩

theorem isPart_of_length {s : Bytes} (hseps : s.filter isSeparator = []) (hlength : (contactParts s).length = 1) :
    IsPart s := by
  refine isPart_iff.2 ⟨?_, by simpa using hseps⟩
  rintro rfl
  cases hlength

/-- **The form of a contact** is seen from what it is cut at, and from the number of its parts. -/
theorem HasForm.isContact {contact : Bytes} (h : HasForm contact) : ∃ scheme user host rest,
    contactParts contact = scheme :: user :: host :: rest ∧ IsContact contact host (portOf rest) := by
  rcases h with ⟨hseps, hlength⟩ | ⟨hseps, hlength, hport⟩
  · obtain ⟨scheme, v, rfl, hscheme, hv, hlength⟩ := exists_part hseps hlength
    obtain ⟨user, host, rfl, huser, hhost, hlength⟩ := exists_part hv hlength
    replace hhost := isPart_of_length hhost hlength
    exact ⟨scheme, user, host, [], contactParts_of_host hscheme huser hhost, scheme, user, hscheme, huser, hhost,
      .inl ⟨rfl, rfl⟩⟩
  · obtain ⟨scheme, v, rfl, hscheme, hv, hlength⟩ := exists_part hseps hlength
    obtain ⟨user, w, rfl, huser, hw, hlength⟩ := exists_part hv hlength
    obtain ⟨host, digits, rfl, hhost, hdigits, hlength⟩ := exists_part hw hlength
    replace hdigits := isPart_of_length hdigits hlength
    have hparts := contactParts_of_port hscheme huser hhost hdigits
    obtain ⟨hdecimal, hlt⟩ := hport digits (by rw [hparts]; rfl)
    exact ⟨scheme, user, host, [digits], hparts, scheme, user, hscheme, huser, hhost,
      .inr ⟨digits, hdecimal, (toNat_atoi_eq_iff hdecimal).2 hlt, rfl⟩⟩

theorem readContact_eq (contact : Bytes) : readContact contact =
    match contactParts contact with
    | _ :: _ :: address :: rest => .found address (portOf rest)
    | _ => .asserts := by
  unfold readContact contactParts
  generalize tokens (fun c => c == '@' || c == ':') contact = parts
  match parts with
  | [] | [_] | [_, _] | [_, _, _] | _ :: _ :: _ :: _ :: _ => rfl

/-- What is read of the row of the profile. -/
def lookupRow (row : Bytes) : ProfileLookup :=
  match (words row)[2]? with
  | some contact => readContact contact
  | none => .asserts

theorem lookupRow_of_words {row w : Bytes} {ws : List Bytes} : words row = w :: ws → lookupRow row =
    match ws with
    | _ :: contact :: _ => readContact contact
    | _ => .asserts := by
  intro h
  unfold lookupRow
  rw [h]
  match ws with
  | [] | [_] | _ :: _ :: _ => rfl

theorem lookupRow_ne_notFound (row : Bytes) : lookupRow row ≠ .notFound := by
  unfold lookupRow
  split
  · rw [readContact_eq]
    split <;> simp
  · simp

/-- The rows before that of the profile are passed over, as long as they have a word. -/
theorem findProfile_eq (profile : Bytes) (rows : List Bytes) : findProfile profile rows =
    if ∀ row ∈ rows.takeWhile (!isRowOf profile ·), words row ≠ [] then
      (rows.find? (isRowOf profile)).elim .notFound lookupRow
    else .asserts := by
  induction rows with
  | nil => rfl
  | cons row rows ih =>
    unfold findProfile
    change (match words row with | [] => _ | w :: ws => _) = _
    cases hwords : words row with
    | nil =>
      have hrow : isRowOf profile row = false := by simp [isRowOf, hwords]
      simp [hrow, hwords]
    | cons w ws =>
      by_cases hw : w = profile
      · have hrow : isRowOf profile row = true := by simp [isRowOf, hwords, hw]
        simp only [hw, if_true, List.takeWhile_cons, hrow, Bool.not_true, Bool.false_eq_true, if_false,
          List.not_mem_nil, false_implies, implies_true, List.find?_cons, Option.elim_some,
          lookupRow_of_words hwords]
        rfl
      · have hrow : isRowOf profile row = false := by simp [isRowOf, hwords, hw]
        simp only [if_neg hw, ih, List.takeWhile_cons, hrow, Bool.not_false, if_true, List.forall_mem_cons, hwords,
          ne_eq, reduceCtorEq, not_false_eq_true, true_and, List.find?_cons]

namespace FsMessage

/-- `getSipProfile` comes to an end, and what it finds is in a row of the profile. -/
def LookupRight (m : FsMessage) (profile : Bytes) : Prop :=
  m.getSipProfile profile ≠ .asserts ∧ ∀ address port, m.getSipProfile profile = .found address port →
    ∃ row ∈ lines m.strContent, IsRow profile row address port

/-- Two contacts have the same third part, and the same number after it (`5060`, if there is none). -/
def SameAddress (contact contact' : Bytes) : Prop :=
  (contactParts contact)[2]? = (contactParts contact')[2]? ∧
    portOf ((contactParts contact).drop 3) = portOf ((contactParts contact').drop 3)

/-- The third word of another row of the profile has the form of a contact, with the same address. -/
def IsRepeated (m : FsMessage) (profile contact : Bytes) : Prop :=
  ∃ row ∈ lines m.strContent, isRowOf profile row = true ∧
    ∃ contact', (words row)[2]? = some contact' ∧ HasForm contact' ∧ SameAddress contact contact'

/-- The rows before the first one of the profile have a word each, and if there is one, then its
    third word has the form of a contact. It may also have three parts at least, and the address of
    another row of the profile whose third word has this form. -/
def Lookable (m : FsMessage) (profile : Bytes) : Prop :=
  (∀ row ∈ (lines m.strContent).takeWhile (!isRowOf profile ·), words row ≠ []) ∧
    ∀ row ∈ (lines m.strContent).find? (isRowOf profile), ∃ contact, (words row)[2]? = some contact ∧
      (HasForm contact ∨ 3 ≤ (contactParts contact).length ∧ m.IsRepeated profile contact)

/-- What is found in a row. -/
theorem lookupRow_eq_found {row address : Bytes} {port : UInt32} : lookupRow row = .found address port ↔
    ∃ contact scheme user rest, (words row)[2]? = some contact ∧
      contactParts contact = scheme :: user :: address :: rest ∧ portOf rest = port := by
  unfold lookupRow
  cases (words row)[2]? with
  | none => simp
  | some contact =>
    simp only [readContact_eq, Option.some.injEq]
    constructor
    · intro h
      split at h
      next scheme user host rest heq =>
        cases h
        exact ⟨contact, scheme, user, rest, rfl, heq, rfl⟩
      next => cases h
    · rintro ⟨_, scheme, user, rest, rfl, heq, rfl⟩
      rw [heq]

/-- The address that is cut out is that of a row of the profile. -/
theorem exists_isRow_iff {m : FsMessage} {profile row contact scheme user host : Bytes} {rest : List Bytes}
    (hrow : row ∈ lines m.strContent) (hof : isRowOf profile row = true) (hcontact : (words row)[2]? = some contact)
    (hparts : contactParts contact = scheme :: user :: host :: rest) :
    (∃ row' ∈ lines m.strContent, IsRow profile row' host (portOf rest)) ↔
      HasForm contact ∨ 3 ≤ (contactParts contact).length ∧ m.IsRepeated profile contact := by
  constructor
  · rintro ⟨row', hrow', hof', contact', hcontact', hform⟩
    obtain ⟨hform, scheme', user', rest', hparts', hport⟩ := hform.parts
    refine .inr ⟨by rw [hparts]; simp, row', hrow', hof', contact', hcontact', hform, ?_, ?_⟩
    · rw [hparts, hparts']
      rfl
    · rw [hparts, hparts']
      exact hport.symm
  · rintro (hform | ⟨-, row', hrow', hof', contact', hcontact', hform, hhost, hport⟩)
    · obtain ⟨scheme', user', host', rest', hparts', hform⟩ := hform.isContact
      obtain ⟨-, -, rfl, rfl⟩ : scheme = scheme' ∧ user = user' ∧ host = host' ∧ rest = rest' := by
        simpa using hparts.symm.trans hparts'
      exact ⟨row, hrow, hof, contact, hcontact, hform⟩
    · obtain ⟨scheme', user', host', rest', hparts', hform⟩ := hform.isContact
      rw [hparts, hparts'] at hhost hport
      obtain rfl : host = host' := Option.some_inj.1 hhost
      replace hport : portOf rest = portOf rest' := hport
      exact ⟨row', hrow', hof', contact', hcontact', hport ▸ hform⟩

/-- **The profile.** -/
theorem lookupRight_iff (m : FsMessage) (profile : Bytes) : m.LookupRight profile ↔ m.Lookable profile := by
  unfold LookupRight Lookable getSipProfile
  rw [findProfile_eq]
  by_cases hbefore : ∀ row ∈ (lines m.strContent).takeWhile (!isRowOf profile ·), words row ≠ []
  · rw [if_pos hbefore]
    rw [and_iff_right hbefore]
    cases hfind : (lines m.strContent).find? (isRowOf profile) with
    | none => simp
    | some row =>
      have hmem : row ∈ lines m.strContent := List.mem_of_find?_eq_some hfind
      have hof : isRowOf profile row = true := List.find?_some hfind
      simp only [Option.elim_some, Option.mem_some_iff, forall_eq']
      constructor
      · rintro ⟨hends, hfound⟩
        cases hrow : lookupRow row with
        | asserts => exact absurd hrow hends
        | notFound => exact absurd hrow (lookupRow_ne_notFound row)
        | found host port =>
          obtain ⟨contact, scheme, user, rest, hcontact, hparts, rfl⟩ := lookupRow_eq_found.1 hrow
          exact ⟨contact, hcontact, (exists_isRow_iff hmem hof hcontact hparts).1 (hfound _ _ hrow)⟩
      · rintro ⟨contact, hcontact, hform⟩
        obtain ⟨scheme, user, host, rest, hparts⟩ : ∃ scheme user host rest,
            contactParts contact = scheme :: user :: host :: rest := by
          rcases hform with hform | ⟨hthree, -⟩
          · obtain ⟨scheme, user, host, rest, hparts, -⟩ := hform.isContact
            exact ⟨scheme, user, host, rest, hparts⟩
          · match contactParts contact, hthree with
            | scheme :: user :: host :: rest, _ => exact ⟨scheme, user, host, rest, rfl⟩
        have hrow := lookupRow_eq_found.2 ⟨contact, scheme, user, rest, hcontact, hparts, rfl⟩
        rw [hrow]
        refine ⟨by simp, ?_⟩
        rintro _ _ ⟨⟩
        exact (exists_isRow_iff hmem hof hcontact hparts).2 hform
  · rw [if_neg hbefore]
    exact iff_of_false (fun h => h.1 rfl) fun h => hbefore h.1

/-- A row of spaces before that of the profile. -/
def exampleBlankRow : FsMessage :=
  { reset with strContent := "Name Type Data\n  \ninternal profile sip:mod_sofia@1.2.3.4:5060\n".toList }

theorem not_lookupRight : ¬ ∀ (m : FsMessage) (profile : Bytes), m.LookupRight profile := by
  intro h
  have hasserts : exampleBlankRow.getSipProfile "internal".toList = .asserts := by
    unfold exampleBlankRow
    rw [String.toList_ofList, String.toList_ofList]
    rfl
  exact (h exampleBlankRow "internal".toList).1 hasserts

/-- The first row of the profile has a contact, and the rows before it have a word. -/
theorem getSipProfile_of_row {m : FsMessage} {profile address : Bytes} {port : UInt32} {before after : List Bytes}
    {row : Bytes} (hlines : lines m.strContent = before ++ row :: after)
    (hbefore : ∀ r ∈ before, words r ≠ [] ∧ isRowOf profile r = false) (hrow : IsRow profile row address port) :
    m.getSipProfile profile = .found address port := by
  obtain ⟨hof, contact, hcontact, hform⟩ := hrow
  obtain ⟨-, scheme, user, rest, hparts, rfl⟩ := hform.parts
  have hfind : before.find? (isRowOf profile) = none := by
    simpa using fun r hr => (hbefore r hr).2
  have htake : (before ++ row :: after).takeWhile (!isRowOf profile ·) = before := by
    rw [List.takeWhile_append_of_pos fun r hr => by simp [(hbefore r hr).2]]
    simp [hof]
  unfold getSipProfile
  rw [hlines, findProfile_eq, htake, if_pos fun r hr => (hbefore r hr).1, List.find?_append, hfind]
  simp only [Option.none_or, List.find?_cons, hof, Option.elim_some]
  exact lookupRow_eq_found.2 ⟨contact, scheme, user, rest, hcontact, hparts, rfl⟩

end FsMessage

end Ssp
