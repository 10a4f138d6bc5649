import Ssp.Fs.Message

/-!
# Messages read in pieces

A read from the event socket ends at any byte, so a message is appended in
chunks. Whether the message comes out as if it had been read at once depends on
where it is cut.

* Until the first line names a category and a type (`header`), nothing is set,
  and what is appended is parsed from scratch (`Blank`). So the message is as good
  as unread up to the first chunk that brings a header.
* From then on, what has been set stays. The lines of the raw message are parsed
  again from the first one, which is no `Reply-Text` and no `Content-Length` line:
  nothing more is set (`append_stale`). Only if the content length is known, what
  is appended is added to the content as it is (`append_content`).

So a message survives being cut if the first chunks up to the header bring all
that is parsed, the type, the reply status, the content length, and if the rest
is content that is the same written back line by line (`CutOk`).
`appendAll_view_iff` says that it survives in no other case.
-/

namespace Ssp

namespace FsMessage

/-- What a message says: its category, type, reply status and content, and
    whether it is complete. -/
def view (m : FsMessage) : FsMsgCategory × FsMsgType × FsReplyStatus × Bytes × Bool :=
  (m.category, m.type, m.replyStatus, m.strContent, m.bComplete)

/-- Appending chunks one after the other. -/
def appendAll (m : FsMessage) (chunks : List Bytes) : FsMessage := chunks.foldl append m

end FsMessage

/-! ## The parts of a message -/

/-- The category and type words of the first line, with the lines after it; `none`
    if the first line does not have two words after `Content-Type: `. -/
def header (s : Bytes) : Option (Bytes × Bytes × List Bytes) :=
  match lines s with
  | [] => none
  | l :: ls =>
    if contentType.isPrefixOf l then
      match slashWords (l.drop 14) with
      | [c, t] => some (c, t, ls)
      | _ => none
    else none

/-- The content length and the content of the lines after the header, where the
    first line with a length other than `0` is the last of the `Content-Length`
    lines; `none` if another line comes before it. -/
def body : List Bytes → Option (UInt32 × List Bytes)
  | [] => some (0, [])
  | l :: ls =>
    if contentLength.isPrefixOf l then
      if atoi (l.drop 16) = 0 then body ls else some (atoi (l.drop 16), ls)
    else none

/-- The reply status of a `Reply-Text` line. -/
def replyOf (l : Bytes) : Option FsReplyStatus :=
  if replyText.isPrefixOf l then replyStatusOf (l.drop 12) else none

/-- The first chunks, up to the one that completes the header, and the rest. -/
def cutAtHeader (s : Bytes) : List Bytes → Bytes × Bytes
  | [] => (s, [])
  | d :: ds => if (header (s ++ d)).isSome then (s ++ d, ds.flatten) else cutAtHeader (s ++ d) ds

/-- A message `p ++ v` may be cut after `p`: nothing follows, or `p` has the type
    and

    * the reply status of a `command/reply`;
    * the content length of an `api/response` or a `text` message, ends with a
      line, and is followed by lines without an empty one; or no length other than
      `0`, where the message is a request and has no content anyway. -/
def CutOk (p v : Bytes) : Prop :=
  v = [] ∨ ∃ c t ls cat ty, header p = some (c, t, ls) ∧ categoryOf c = some cat ∧
    typeOf t = some ty ∧
    (cat = .command → ty = .reply → ∃ r ∈ ls.head?, (replyOf r).isSome) ∧
    ((cat = .api ∧ ty = .response) ∨ cat = .text →
      (∃ n bs, body ls = some (n, bs) ∧ n ≠ 0 ∧ '\n' ∈ p.getLast? ∧
          v = terminate '\n' (lines v)) ∨
        (ty = .request ∧ body ls = some (0, []) ∧
          ∀ c' t' ls' n bs, header (p ++ v) = some (c', t', ls') → body ls' = some (n, bs) →
            bs = []))

/-! ## Parsing from scratch -/

namespace FsMessage

/-- Nothing has been set yet, and `s` has been read. -/
structure Blank (m : FsMessage) (s : Bytes) : Prop where
  category : m.category = .unknownCategory
  type : m.type = .unknownType
  replyStatus : m.replyStatus = .undefined
  nContentLength : m.nContentLength = 0
  strContent : m.strContent = []
  bComplete : m.bComplete = false
  rawMsg : m.rawMsg = s

theorem blank_reset : Blank reset [] := ⟨rfl, rfl, rfl, rfl, rfl, rfl, rfl⟩

/-- What a line before the first content length does. -/
theorem parseContent_of_zero {m : FsMessage} (hn : m.nContentLength = 0) (l : Bytes) :
    m.parseContent l = if contentLength.isPrefixOf l then
      ({ m with nContentLength := atoi (l.drop 16) }, none)
    else (m, some (.expectedContentLength l)) := by
  rw [parseContent, if_pos hn]

theorem parseLine_of_hasContent {m : FsMessage} (hc : m.hasContent) (l : Bytes) :
    m.parseLine l = m.parseContent l := by
  have h₁ : m.category ≠ .unknownCategory := by rcases hc with ⟨h, -⟩ | h <;> simp [h]
  have h₂ : ¬(m.category = .command ∧ m.type = .reply) := by rcases hc with ⟨h, -⟩ | h <;> simp [h]
  rw [parseLine, if_neg h₁, if_neg h₂, if_pos hc]

/-- Content lines are added to the content, each with its end. -/
theorem parseLines_content {m : FsMessage} (hc : m.hasContent) (hn : m.nContentLength ≠ 0)
    (ls : List Bytes) :
    m.parseLines ls = ({ m with strContent := m.strContent ++ terminate '\n' ls }, none) := by
  induction ls generalizing m with
  | nil => simp [parseLines]
  | cons l ls ih =>
    have hl : m.parseLine l = ({ m with strContent := m.strContent ++ l ++ ['\n'] }, none) := by
      rw [parseLine_of_hasContent hc, parseContent, if_neg hn]
    rw [parseLines_cons_of_ok hl]
    rw [ih (m := { m with strContent := m.strContent ++ l ++ ['\n'] }) hc hn]
    simp

/-- The lines after the header of a message with a content, as `body` reads them. -/
theorem parseLines_hasContent {m : FsMessage} (hc : m.hasContent) (hn : m.nContentLength = 0)
    (ls : List Bytes) :
    (body ls = none ∧ ∃ e, m.parseLines ls = (m, some e)) ∨
      ∃ n bs, body ls = some (n, bs) ∧ (n = 0 → bs = []) ∧ m.parseLines ls =
        ({ m with nContentLength := n, strContent := m.strContent ++ terminate '\n' bs }, none) := by
  induction ls with
  | nil => exact .inr ⟨0, [], rfl, fun _ => rfl, by rw [parseLines, terminate_nil, ← hn]; simp⟩
  | cons l ls ih =>
    have hp := parseContent_of_zero hn l
    rw [← parseLine_of_hasContent hc] at hp
    by_cases hl : contentLength.isPrefixOf l
    · rw [if_pos hl] at hp
      rw [body, if_pos hl, parseLines_cons_of_ok hp]
      by_cases h0 : atoi (l.drop 16) = 0
      · rw [if_pos h0, h0, show ({ m with nContentLength := 0 } : FsMessage) = m by rw [← hn]]
        exact ih
      · rw [if_neg h0]
        refine .inr ⟨_, ls, rfl, fun h => absurd h h0, ?_⟩
        exact parseLines_content (m := { m with nContentLength := atoi (l.drop 16) }) hc h0 ls
    · rw [if_neg hl] at hp
      rw [body, if_neg hl]
      exact .inl ⟨rfl, _, parseLines_cons_of_error hp ls⟩

theorem parseLine_of_reply {m : FsMessage} (hc : m.category = .command) (ht : m.type = .reply)
    (l : Bytes) : m.parseLine l = m.parseReplyText l := by
  rw [parseLine, if_neg (by simp [hc]), if_pos ⟨hc, ht⟩]

/-- The lines of a message with neither a reply status nor a content are skipped. -/
theorem parseLines_of_other {m : FsMessage} (hc : m.category ≠ .unknownCategory)
    (hr : ¬(m.category = .command ∧ m.type = .reply)) (hh : ¬m.hasContent) (ls : List Bytes) :
    m.parseLines ls = (m, none) := by
  induction ls with
  | nil => rfl
  | cons l ls ih =>
    have hl : m.parseLine l = (m, none) := by
      rw [parseLine, if_neg hc, if_neg hr, if_neg hh]
    rw [parseLines_cons_of_ok hl, ih]

/-- A reply line, as `replyOf` reads it. -/
theorem parseReplyText_of_undefined {m : FsMessage} (hs : m.replyStatus = .undefined) (l : Bytes) :
    (∃ st, replyOf l = some st ∧
        m.parseReplyText l = ({ m with strReplyText := l, replyStatus := st }, none)) ∨
      replyOf l = none ∧ ∃ w e, m.parseReplyText l = ({ m with strReplyText := w }, some e) := by
  rw [parseReplyText, if_neg (by simp [hs]), replyOf]
  by_cases hl : replyText.isPrefixOf l
  · rw [if_pos hl, if_pos hl]
    cases hst : replyStatusOf (l.drop 12) with
    | none => exact .inr ⟨rfl, l, _, rfl⟩
    | some st => exact .inl ⟨st, rfl, rfl⟩
  · rw [if_neg hl, if_neg hl]
    exact .inr ⟨rfl, m.strReplyText, _, rfl⟩

end FsMessage

/-- A status found in a line is none but the undefined one. -/
theorem replyOf_ne_undefined {l : Bytes} {st : FsReplyStatus} (h : replyOf l = some st) :
    st ≠ .undefined := by
  rintro rfl
  unfold replyOf replyStatusOf at h
  split_ifs at h <;> simp at h

theorem categoryOf_ne_unknown {w : Bytes} {cat : FsMsgCategory} (h : categoryOf w = some cat) :
    cat ≠ .unknownCategory := by
  rintro rfl
  unfold categoryOf at h
  split_ifs at h <;> simp at h

/-- What the lines after the header set. -/
structure Parsed where
  replyStatus : FsReplyStatus := .undefined
  nContentLength : UInt32 := 0
  strContent : Bytes := []
  bComplete : Bool := false

/-- What the lines after the header set, by category and type. -/
def parsed (cat : FsMsgCategory) (ty : FsMsgType) (ls : List Bytes) : Parsed :=
  if cat = .command ∧ ty = .reply then
    match ls with
    | [] => {}
    | r :: rs =>
      match replyOf r with
      | none => {}
      | some st => { replyStatus := st, bComplete := rs.isEmpty }
  else if (cat = .api ∧ ty = .response) ∨ cat = .text then
    match body ls with
    | none => {}
    | some (n, bs) =>
      { nContentLength := n
        strContent := terminate '\n' bs
        bComplete := ty = .request ∨ (0 < n ∧ (terminate '\n' bs).length = n.toNat) }
  else { bComplete := ty = .request }

namespace FsMessage

/-- The message says what `q` says, of category `cat` and type `ty`. -/
structure Says (m : FsMessage) (cat : FsMsgCategory) (ty : FsMsgType) (q : Parsed) : Prop where
  category : m.category = cat
  type : m.type = ty
  replyStatus : m.replyStatus = q.replyStatus
  nContentLength : m.nContentLength = q.nContentLength
  strContent : m.strContent = q.strContent
  bComplete : m.bComplete = q.bComplete

theorem Says.view {m : FsMessage} {cat : FsMsgCategory} {ty : FsMsgType} {q : Parsed}
    (h : m.Says cat ty q) : m.view = (cat, ty, q.replyStatus, q.strContent, q.bComplete) := by
  rw [FsMessage.view, h.category, h.type, h.replyStatus, h.strContent, h.bComplete]

/-- The end of `append`, after the loop of `parse`. -/
def finish : FsMessage × Option ParseError → FsMessage
  | (m, none) => { m.checkComplete with bValid := true }
  | (m, some _) => m

/-- Parsing the lines after the header, where nothing else is set yet. -/
theorem says_parsed {m : FsMessage} {cat : FsMsgCategory} {ty : FsMsgType}
    (h : m.Says cat ty {}) (hcat : cat ≠ .unknownCategory) (ls : List Bytes) :
    (finish (m.parseLines ls)).Says cat ty (parsed cat ty ls) := by
  obtain ⟨rfl, rfl, hs, hn, hc, hb⟩ := h
  simp only at hs hn hc hb
  unfold parsed
  split_ifs with hr hcon
  · -- A `command/reply`: the first line has the status, a second one is an error.
    cases ls with
    | nil =>
      have : m.checkComplete = m := by simp [checkComplete, hr.2, hs, hn]
      simp only [parseLines, finish, this]
      exact ⟨rfl, rfl, hs, hn, hc, hb⟩
    | cons r rs =>
      have hl := parseLine_of_reply hr.1 hr.2 r
      rcases parseReplyText_of_undefined hs r with ⟨st, hst, hp⟩ | ⟨hst, w, e, hp⟩
      · simp only [parseLines_cons_of_ok (hl.trans hp), hst]
        have hne := replyOf_ne_undefined hst
        cases rs with
        | nil =>
          simp only [parseLines, finish, checkComplete]
          rw [if_pos (.inr (.inl ⟨hr.2, hne⟩))]
          exact ⟨rfl, rfl, rfl, hn, hc, rfl⟩
        | cons r₂ rs =>
          set m₁ : FsMessage := { m with strReplyText := r, replyStatus := st } with hm₁
          have h₂ : m₁.parseLine r₂ = (m₁, some (.multipleReplyText r₂)) := by
            rw [parseLine_of_reply (m := m₁) hr.1 hr.2, parseReplyText, if_pos hne]
          rw [parseLines_cons_of_error h₂]
          exact ⟨rfl, rfl, rfl, hn, hc, hb⟩
      · simp only [parseLines_cons_of_error (hl.trans hp), hst]
        exact ⟨rfl, rfl, hs, hn, hc, hb⟩
  · rcases parseLines_hasContent hcon hn ls with ⟨hbody, e, hp⟩ | ⟨n, bs, hbody, -, hp⟩
    · rw [hp, hbody]
      exact ⟨rfl, rfl, hs, hn, hc, hb⟩
    · rw [hp, hbody, hc, List.nil_append]
      simp only [finish, checkComplete, hs, ne_eq, not_true_eq_false, and_false, false_or]
      split_ifs with hcomp
      · exact ⟨rfl, rfl, rfl, rfl, rfl, (decide_eq_true hcomp).symm⟩
      · exact ⟨rfl, rfl, rfl, rfl, rfl, hb.trans (decide_eq_false hcomp).symm⟩
  · rw [parseLines_of_other hcat hr hcon]
    simp only [finish, checkComplete, hs, hn, ne_eq, not_true_eq_false, and_false,
      UInt32.lt_irrefl, false_and, or_false]
    split_ifs with hcomp
    · exact ⟨rfl, rfl, rfl, rfl, hc, (decide_eq_true hcomp).symm⟩
    · exact ⟨rfl, rfl, hs, hn, hc, hb.trans (decide_eq_false hcomp).symm⟩

end FsMessage

/-! ## One more chunk -/

/-- A `Content-Type` line is no `Reply-Text` line, nor a `Content-Length` line. -/
theorem not_replyText_of_contentType {l : Bytes} (h : contentType.isPrefixOf l) :
    ¬replyText.isPrefixOf l := by
  obtain ⟨r, rfl⟩ := List.isPrefixOf_iff_prefix.1 h
  exact Bool.eq_false_iff.1 rfl

theorem not_contentLength_of_contentType {l : Bytes} (h : contentType.isPrefixOf l) :
    ¬contentLength.isPrefixOf l := by
  obtain ⟨r, rfl⟩ := List.isPrefixOf_iff_prefix.1 h
  exact Bool.eq_false_iff.1 rfl

namespace FsMessage

theorem parseLine_rawMsg (m : FsMessage) (l : Bytes) : (m.parseLine l).1.rawMsg = m.rawMsg := by
  unfold parseLine parseContentType parseReplyText parseContent
  split_ifs <;> try rfl
  · split <;> try rfl
    split <;> try rfl
    split <;> rfl
  · split <;> rfl

theorem parseLines_rawMsg (m : FsMessage) (ls : List Bytes) :
    (m.parseLines ls).1.rawMsg = m.rawMsg := by
  induction ls generalizing m with
  | nil => rfl
  | cons l ls ih =>
    have hl := parseLine_rawMsg m l
    rw [parseLines]
    split
    next m' h =>
      rw [ih, ← hl, h]
    next m' e h =>
      rw [← hl, h]

@[simp]
theorem checkComplete_rawMsg (m : FsMessage) : m.checkComplete.rawMsg = m.rawMsg := by
  unfold checkComplete
  split_ifs <;> rfl

/-- A chunk, as long as no content length is known. -/
theorem append_of_zero {m : FsMessage} (hn : m.nContentLength = 0) (d : Bytes) :
    m.append d = finish (({ m with rawMsg := m.rawMsg ++ d } : FsMessage).parseLines
      (lines (m.rawMsg ++ d))) := by
  rw [append, parse, if_neg (by simp [hn])]
  rcases FsMessage.parseLines _ _ with ⟨m', _ | e⟩ <;> rfl

/-- A chunk, once the content length is known. -/
theorem append_of_ne_zero {m : FsMessage} (hn : m.nContentLength ≠ 0) (d : Bytes) :
    m.append d = finish ({ m with rawMsg := m.rawMsg ++ d, strContent := m.strContent ++ d }, none) := by
  unfold append parse finish
  rw [if_pos (by simpa using UInt32.pos_iff_ne_zero.2 hn)]

theorem finish_rawMsg (r : FsMessage × Option ParseError) : (finish r).rawMsg = r.1.rawMsg := by
  rcases r with ⟨m, _ | e⟩
  · exact checkComplete_rawMsg m
  · rfl

/-- The raw message is all that was read. -/
theorem append_rawMsg (m : FsMessage) (d : Bytes) : (m.append d).rawMsg = m.rawMsg ++ d := by
  by_cases hn : m.nContentLength = 0
  · rw [append_of_zero hn, finish_rawMsg, parseLines_rawMsg]
  · rw [append_of_ne_zero hn, finish_rawMsg]

/-- Without a header that names a category, nothing is set. -/
theorem Blank.append_of_none {m : FsMessage} {s d : Bytes} (h : m.Blank s)
    (hh : ∀ c t ls, header (s ++ d) = some (c, t, ls) → categoryOf c = none) :
    (m.append d).Blank (s ++ d) := by
  obtain ⟨h₁, h₂, h₃, h₄, h₅, h₆, rfl⟩ := h
  set m₁ : FsMessage := { m with rawMsg := m.rawMsg ++ d } with hm₁
  suffices hf : (finish (m₁.parseLines (lines (m.rawMsg ++ d)))).Says .unknownCategory .unknownType {} by
    rw [← append_of_zero h₄] at hf
    exact ⟨hf.1, hf.2, hf.3, hf.4, hf.5, hf.6, append_rawMsg m d⟩
  cases hl : lines (m.rawMsg ++ d) with
  | nil =>
    have : m₁.checkComplete = m₁ := by simp [checkComplete, hm₁, h₂, h₄]
    rw [parseLines, finish, this]
    exact ⟨h₁, h₂, h₃, h₄, h₅, h₆⟩
  | cons l ls =>
    obtain ⟨e, he⟩ : ∃ e, m₁.parseLine l = (m₁, some e) := by
      rw [parseLine, if_pos h₁, parseContentType]
      split_ifs with hc
      · split
        next c t hw =>
          rw [hh c t ls (by simp [header, hl, hc, hw])]
          exact ⟨_, rfl⟩
        next =>
          exact ⟨_, rfl⟩
      · exact ⟨_, rfl⟩
    rw [parseLines_cons_of_error he]
    exact ⟨h₁, h₂, h₃, h₄, h₅, h₆⟩

/-- With a header, the message says what was read so far. If its type is not known
    (or not fully read), it has a category but no type. -/
theorem Blank.append_of_some {m : FsMessage} {s d c t : Bytes} {ls : List Bytes}
    {cat : FsMsgCategory} (h : m.Blank s) (hh : header (s ++ d) = some (c, t, ls))
    (hcat : categoryOf c = some cat) :
    (m.append d).Says cat ((typeOf t).getD .unknownType)
      (if (typeOf t).isSome then parsed cat ((typeOf t).getD .unknownType) ls else {}) := by
  obtain ⟨h₁, h₂, h₃, h₄, h₅, h₆, rfl⟩ := h
  rw [append_of_zero h₄]
  set m₁ : FsMessage := { m with rawMsg := m.rawMsg ++ d } with hm₁
  cases hl : lines (m.rawMsg ++ d) with
  | nil => simp [header, hl] at hh
  | cons l ls' =>
    simp only [header, hl] at hh
    split_ifs at hh with hc
    have hw : slashWords (l.drop 14) = [c, t] ∧ ls' = ls := by
      split at hh <;> simp_all
    obtain ⟨hw, rfl⟩ := hw
    have hp : m₁.parseLine l = m₁.parseContentType l := by rw [parseLine, if_pos h₁]
    simp only [parseContentType, hc, if_true, hw, hcat] at hp
    cases ht : typeOf t with
    | none =>
      rw [ht] at hp
      rw [parseLines_cons_of_error hp]
      exact ⟨rfl, h₂, h₃, h₄, h₅, h₆⟩
    | some ty =>
      rw [ht] at hp
      rw [parseLines_cons_of_ok hp]
      exact says_parsed (m := { m₁ with category := cat, type := ty })
        ⟨rfl, rfl, h₃, h₄, h₅, h₆⟩ (categoryOf_ne_unknown hcat) ls'

/-- Parsing again sets nothing, where no content length is known: the first line is
    no `Reply-Text` and no `Content-Length`, and a message that needs neither is
    complete already, or never. -/
theorem Says.append_stale {m : FsMessage} {cat : FsMsgCategory} {ty : FsMsgType} {q : Parsed}
    (h : m.Says cat ty q) (hcat : cat ≠ .unknownCategory) (hn : q.nContentLength = 0) {d l : Bytes}
    {ls : List Bytes} (hl : lines (m.rawMsg ++ d) = l :: ls) (hct : contentType.isPrefixOf l)
    (hq : ¬(cat = .command ∧ ty = .reply) → q.replyStatus = .undefined)
    (hb : ty = .request → ¬((cat = .api ∧ ty = .response) ∨ cat = .text) → q.bComplete = true) :
    (m.append d).Says cat ty q := by
  rw [append_of_zero (h.nContentLength.trans hn), hl]
  obtain ⟨rfl, rfl, h₃, h₄, h₅, h₆⟩ := h
  set m₁ : FsMessage := { m with rawMsg := m.rawMsg ++ d } with hm₁
  have hs : m₁.Says m.category m.type q := ⟨rfl, rfl, h₃, h₄, h₅, h₆⟩
  by_cases hr : m.category = .command ∧ m.type = .reply
  · obtain ⟨e, he⟩ : ∃ e, m₁.parseLine l = (m₁, some e) := by
      rw [parseLine_of_reply (m := m₁) hr.1 hr.2, parseReplyText]
      split_ifs with h₁ h₂
      · exact ⟨_, rfl⟩
      · exact absurd h₂ (not_replyText_of_contentType hct)
      · exact ⟨_, rfl⟩
    rwa [parseLines_cons_of_error he]
  · by_cases hh : m₁.hasContent
    · obtain ⟨e, he⟩ : ∃ e, m₁.parseLine l = (m₁, some e) := by
        rw [parseLine_of_hasContent hh, parseContent_of_zero (m := m₁) (h₄.trans hn),
          if_neg (not_contentLength_of_contentType hct)]
        exact ⟨_, rfl⟩
      rwa [parseLines_cons_of_error he]
    · rw [parseLines_of_other (m := m₁) hcat hr hh]
      simp only [finish, checkComplete, hm₁, h₃, h₄, hn, hq hr]
      split_ifs with hc
      · refine ⟨rfl, rfl, (hq hr).symm, hn.symm, h₅, (hb ?_ hh).symm⟩
        simpa using hc
      · exact ⟨rfl, rfl, (hq hr).symm, hn.symm, h₅, h₆⟩

/-- A chunk of content is added as it is. -/
theorem Says.append_content {m : FsMessage} {cat : FsMsgCategory} {ty : FsMsgType} {q : Parsed}
    (h : m.Says cat ty q) (hn : q.nContentLength ≠ 0) (d : Bytes) :
    ∃ b, (m.append d).Says cat ty { q with strContent := q.strContent ++ d, bComplete := b } ∧
      (q.bComplete = true → b = true) ∧
      ((q.strContent ++ d).length = q.nContentLength.toNat → b = true) := by
  rw [append_of_ne_zero (h.nContentLength ▸ hn)]
  obtain ⟨rfl, rfl, h₃, h₄, h₅, h₆⟩ := h
  simp only [finish, checkComplete, h₅, h₄]
  split_ifs with hc
  · exact ⟨true, ⟨rfl, rfl, h₃, rfl, rfl, rfl⟩, fun _ => rfl, fun _ => rfl⟩
  · refine ⟨q.bComplete, ⟨rfl, rfl, h₃, rfl, rfl, h₆⟩, id, fun hlen => ?_⟩
    exact absurd (.inr (.inr ⟨UInt32.pos_iff_ne_zero.2 hn, hlen⟩)) hc

/-! ## All chunks -/

@[simp]
theorem appendAll_nil (m : FsMessage) : m.appendAll [] = m := rfl

@[simp]
theorem appendAll_cons (m : FsMessage) (d : Bytes) (ds : List Bytes) :
    m.appendAll (d :: ds) = (m.append d).appendAll ds := rfl

end FsMessage

/-- A first line that begins a message begins it still when more is read. -/
theorem contentType_lines_append {s l : Bytes} {ls : List Bytes} (hl : lines s = l :: ls)
    (hct : contentType.isPrefixOf l) (d : Bytes) :
    ∃ l' ls', lines (s ++ d) = l' :: ls' ∧ contentType.isPrefixOf l' := by
  rcases tokens_append_cases (· == '\n') s d with ⟨h, -⟩ | ⟨ts, w, z, zs, h₁, -, h₃, -⟩
  · refine ⟨l, ls ++ lines d, ?_, hct⟩
    rw [lines, h, show tokens _ s = _ from hl]
    rfl
  · rw [show tokens _ s = _ from hl] at h₁
    cases ts with
    | nil =>
      obtain ⟨rfl, rfl⟩ := List.cons_eq_cons.1 h₁
      refine ⟨l ++ z, zs, h₃, ?_⟩
      exact List.isPrefixOf_iff_prefix.2 ((List.isPrefixOf_iff_prefix.1 hct).trans
        (List.prefix_append l z))
    | cons t ts =>
      obtain ⟨rfl, rfl⟩ := List.cons_eq_cons.1 h₁
      exact ⟨l, _, h₃, hct⟩

namespace FsMessage

/-- The rest of a message without a content length is lost. -/
theorem Says.appendAll_stale {m : FsMessage} {cat : FsMsgCategory} {ty : FsMsgType} {q : Parsed}
    (h : m.Says cat ty q) (hcat : cat ≠ .unknownCategory) (hn : q.nContentLength = 0) {l : Bytes}
    {ls : List Bytes} (hl : lines m.rawMsg = l :: ls) (hct : contentType.isPrefixOf l)
    (hq : ¬(cat = .command ∧ ty = .reply) → q.replyStatus = .undefined)
    (hb : ty = .request → ¬((cat = .api ∧ ty = .response) ∨ cat = .text) → q.bComplete = true)
    (ds : List Bytes) : (m.appendAll ds).Says cat ty q := by
  induction ds generalizing m l ls with
  | nil => exact h
  | cons d ds ih =>
    obtain ⟨l', ls', hl', hct'⟩ := contentType_lines_append hl hct d
    rw [appendAll_cons]
    exact ih (h.append_stale hcat hn hl' hct' hq hb) (by rw [append_rawMsg, hl']) hct'

/-- The rest of a message with a content length is content. -/
theorem Says.appendAll_content {m : FsMessage} {cat : FsMsgCategory} {ty : FsMsgType} {q : Parsed}
    (h : m.Says cat ty q) (hn : q.nContentLength ≠ 0) {ds : List Bytes} (hds : ds ≠ []) :
    ∃ b, (m.appendAll ds).Says cat ty
        { q with strContent := q.strContent ++ ds.flatten, bComplete := b } ∧
      (q.bComplete = true → b = true) ∧
      ((q.strContent ++ ds.flatten).length = q.nContentLength.toNat → b = true) := by
  induction ds generalizing m q with
  | nil => exact absurd rfl hds
  | cons d ds ih =>
    obtain ⟨b, hs, hb, hlen⟩ := h.append_content hn d
    rw [appendAll_cons, List.flatten_cons]
    cases ds with
    | nil => exact ⟨b, by simpa using hs, hb, by simpa using hlen⟩
    | cons d' ds =>
      obtain ⟨b', hs', hb', hlen'⟩ := ih hs hn (by simp)
      rw [← List.append_assoc]
      exact ⟨b', hs', fun h => hb' (hb h), hlen'⟩

/-- Up to the chunk that completes the header, nothing is set. -/
theorem Blank.appendAll_cut {m : FsMessage} {s : Bytes} (h : m.Blank s) {ds : List Bytes}
    (hs : header s = none) (hM : header (s ++ ds.flatten) ≠ none) :
    ∃ (m' : FsMessage) (s' d : Bytes) (ds' : List Bytes), m'.Blank s' ∧
      m.appendAll ds = (m'.append d).appendAll ds' ∧
      cutAtHeader s ds = (s' ++ d, ds'.flatten) ∧ header (s' ++ d) ≠ none ∧
      s' ++ d ++ ds'.flatten = s ++ ds.flatten ∧ ∀ x ∈ ds', x ∈ ds := by
  induction ds generalizing m s with
  | nil => simp [hs] at hM
  | cons d ds ih =>
    rw [cutAtHeader]
    by_cases hh : (header (s ++ d)).isSome
    · rw [if_pos hh]
      exact ⟨m, s, d, ds, h, rfl, rfl, Option.isSome_iff_ne_none.1 hh, by simp,
        fun x hx => List.mem_cons_of_mem d hx⟩
    · rw [if_neg hh]
      have hnone : header (s ++ d) = none := by simpa using hh
      rw [List.flatten_cons, ← List.append_assoc] at hM ⊢
      obtain ⟨m', s', d', ds', h₁, h₂, h₃, h₄, h₅, h₆⟩ := ih (h.append_of_none (by simp [hnone])) hnone hM
      exact ⟨m', s', d', ds', h₁, h₂, h₃, h₄, h₅, fun x hx => List.mem_cons_of_mem d (h₆ x hx)⟩

end FsMessage

/-! ## A message and its first part -/

/-- How the type and the lines after the header grow from `p` to `p ++ v`: there are
    more lines, or the last line was cut, or the first line was cut, maybe in the
    middle of the type. -/
inductive Grows (p v t : Bytes) (ls : List Bytes) : Bytes → List Bytes → Prop
  | boundary (h : (∀ x ∈ p.getLast?, x = '\n') ∨ ∀ x ∈ v.head?, x = '\n') :
    Grows p v t ls t (ls ++ lines v)
  | inLine {ts zs : List Bytes} {w z : Bytes} (hp : '\n' ∉ p.getLast?) (hls : ls = ts ++ [w])
      (hv : lines v = z :: zs) :
    Grows p v t ls t (ts ++ (w ++ z) :: zs)
  | inHeader {zs : List Bytes} {y z : Bytes} (hls : ls = []) (hv : lines v = z :: zs) :
    Grows p v t ls (t ++ y) zs

theorem header_eq_some_iff {s c t : Bytes} {ls : List Bytes} :
    header s = some (c, t, ls) ↔ ∃ l, lines s = l :: ls ∧ contentType.isPrefixOf l ∧
      slashWords (l.drop 14) = [c, t] := by
  unfold header
  cases hs : lines s with
  | nil => simp
  | cons l ls' =>
    by_cases hc : contentType.isPrefixOf l
    · simp only [hc, if_true, List.cons.injEq]
      constructor
      · intro h
        split at h <;> simp_all
      · rintro ⟨l', ⟨rfl, rfl⟩, -, hw⟩
        simp [hw]
    · simp only [hc, List.cons.injEq]
      constructor
      · simp
      · rintro ⟨l', ⟨rfl, rfl⟩, hc', -⟩
        exact absurd hc' hc

/-- A header with two words keeps its category word when more is read. -/
theorem grows_of_header {p v c t c' t' : Bytes} {ls ls' : List Bytes}
    (hp : header p = some (c, t, ls)) (hm : header (p ++ v) = some (c', t', ls')) :
    c' = c ∧ Grows p v t ls t' ls' := by
  obtain ⟨l, hl, hct, hw⟩ := header_eq_some_iff.1 hp
  obtain ⟨l', hl', hct', hw'⟩ := header_eq_some_iff.1 hm
  rcases tokens_append_cases (· == '\n') p v with ⟨h, hb⟩ | ⟨ts, w, z, zs, h₁, h₂, h₃, hx, -⟩
  · have hll : lines (p ++ v) = l :: (ls ++ lines v) := by
      rw [lines, h, show tokens _ p = _ from hl]
      rfl
    obtain ⟨rfl, rfl⟩ := List.cons_eq_cons.1 (hll.symm.trans hl')
    obtain ⟨rfl, rfl⟩ : c = c' ∧ t = t' := by simpa using hw.symm.trans hw'
    exact ⟨rfl, .boundary (by simpa using hb)⟩
  · have h₁ := hl.symm.trans h₁
    have h₃ := hl'.symm.trans h₃
    cases ts with
    | nil =>
      obtain ⟨rfl, rfl⟩ := List.cons_eq_cons.1 h₁
      obtain ⟨rfl, rfl⟩ := List.cons_eq_cons.1 h₃
      have hlen : 14 ≤ l.length := (List.isPrefixOf_iff_prefix.1 hct).length_le
      rw [List.drop_append_of_le_length hlen, slashWords] at hw'
      -- The two words of the first line, with more of it.
      rcases tokens_append_cases (· == '/') (l.drop 14) z with
        ⟨hz, -⟩ | ⟨us, x, y, ys, hu, -, hxy, -⟩
      · rw [hw', show tokens _ (l.drop 14) = _ from hw] at hz
        obtain ⟨rfl, rfl, -⟩ : c' = c ∧ t' = t ∧ tokens _ z = [] := by simpa using hz
        exact ⟨rfl, by simpa using Grows.inHeader (t := t') (y := []) rfl h₂⟩
      · rw [show tokens _ (l.drop 14) = _ from hw] at hu
        rw [hw'] at hxy
        obtain ⟨rfl, rfl⟩ : us = [c] ∧ x = t := by
          have := List.append_inj' (show [c] ++ [t] = _ from hu) rfl
          exact ⟨this.1.symm, by simpa using this.2.symm⟩
        obtain ⟨rfl, rfl, -⟩ : c' = c ∧ t' = x ++ y ∧ ys = [] := by simpa using hxy
        exact ⟨rfl, .inHeader rfl h₂⟩
    | cons t₀ ts =>
      obtain ⟨rfl, rfl⟩ := List.cons_eq_cons.1 h₁
      obtain ⟨rfl, rfl⟩ := List.cons_eq_cons.1 h₃
      obtain ⟨rfl, rfl⟩ : c = c' ∧ t = t' := by simpa using hw.symm.trans hw'
      refine ⟨rfl, .inLine (fun hn => ?_) rfl h₂⟩
      obtain ⟨x, hx, hne⟩ := hx
      simp [Option.mem_unique hx hn] at hne

/-- No type is the beginning of another one. -/
theorem typeOf_append {t y : Bytes} {ty ty' : FsMsgType} (h : typeOf t = some ty)
    (h' : typeOf (t ++ y) = some ty') : y = [] := by
  unfold typeOf at h
  split_ifs at h with h₁ h₂ h₃ h₄ <;> subst t <;>
  · unfold typeOf at h'
    split_ifs at h' with h₅ h₆ h₇ h₈ <;> simp_all

theorem Grows.type_eq {p v t t' : Bytes} {ls ls' : List Bytes} {ty ty' : FsMsgType}
    (hg : Grows p v t ls t' ls') (h : typeOf t = some ty) (h' : typeOf t' = some ty') :
    ty' = ty := by
  cases hg with
  | boundary _ => exact Option.some_inj.1 (h'.symm.trans h)
  | inLine _ _ _ => exact Option.some_inj.1 (h'.symm.trans h)
  | inHeader _ _ =>
    obtain rfl := typeOf_append h h'
    rw [List.append_nil] at h'
    exact Option.some_inj.1 (h'.symm.trans h)

/-- What the lines set, apart from the content length. -/
def Parsed.view (q : Parsed) : FsReplyStatus × Bytes × Bool :=
  (q.replyStatus, q.strContent, q.bComplete)

/-! ### Replies -/

theorem replyStatusOf_append {s : Bytes} {st : FsReplyStatus} (h : replyStatusOf s = some st)
    (z : Bytes) : replyStatusOf (s ++ z) = some st := by
  unfold replyStatusOf at h
  split_ifs at h with h₁ h₂
  · obtain ⟨r, rfl⟩ := List.isPrefixOf_iff_prefix.1 h₁
    exact h
  · obtain ⟨r, rfl⟩ := List.isPrefixOf_iff_prefix.1 h₂
    exact h

/-- The status of a reply line does not depend on what follows it. -/
theorem replyOf_append {r : Bytes} {st : FsReplyStatus} (h : replyOf r = some st) (z : Bytes) :
    replyOf (r ++ z) = some st := by
  unfold replyOf at h ⊢
  split_ifs at h with hr
  have hp := List.isPrefixOf_iff_prefix.1 hr
  rw [if_pos (List.isPrefixOf_iff_prefix.2 (hp.trans (List.prefix_append r z))),
    List.drop_append_of_le_length (show 12 ≤ r.length from hp.length_le)]
  exact replyStatusOf_append h z

theorem parsed_reply_complete {ls : List Bytes} (h : (parsed .command .reply ls).bComplete = true) :
    ∃ r st, ls = [r] ∧ replyOf r = some st := by
  unfold parsed at h
  rw [if_pos ⟨rfl, rfl⟩] at h
  rcases ls with _ | ⟨r, rs⟩
  · simp at h
  · cases hr : replyOf r with
    | none => simp [hr] at h
    | some st =>
      refine ⟨r, st, ?_, hr⟩
      simp only [hr, List.isEmpty_iff] at h
      rw [h]

/-- One line in all: none of it was read before, or its beginning. -/
theorem Grows.singleton {p v t t' r' : Bytes} {ls : List Bytes} (hg : Grows p v t ls t' [r']) :
    ls = [] ∨ ∃ r z, ls = [r] ∧ r' = r ++ z := by
  generalize hls' : [r'] = ls' at hg
  cases hg with
  | boundary _ =>
    rcases List.append_eq_singleton_iff.1 hls'.symm with ⟨h, -⟩ | ⟨h, -⟩
    · exact .inl h
    · exact .inr ⟨r', [], h, by simp⟩
  | @inLine ts zs w z _ hls _ =>
    obtain ⟨rfl, hw⟩ : ts = [] ∧ (w ++ z) :: zs = [r'] := by
      rcases List.append_eq_singleton_iff.1 hls'.symm with h | ⟨-, h⟩
      · exact h
      · simp at h
    exact .inr ⟨w, z, hls, by simpa using (List.cons_eq_cons.1 hw).1.symm⟩
  | inHeader hls _ => exact .inl hls

/-- A reply survives when its status was read. -/
theorem parsed_reply_iff {p v t t' : Bytes} {ls ls' : List Bytes} (hg : Grows p v t ls t' ls')
    (h : (parsed .command .reply ls').bComplete = true) :
    (parsed .command .reply ls).view = (parsed .command .reply ls').view ↔
      ∃ r ∈ ls.head?, (replyOf r).isSome := by
  obtain ⟨r', st', rfl, hr'⟩ := parsed_reply_complete h
  rcases hg.singleton with rfl | ⟨r, z, rfl, rfl⟩
  · simp [parsed, Parsed.view, hr']
  · cases hr : replyOf r with
    | none => simp [parsed, Parsed.view, hr, hr']
    | some st =>
      obtain rfl : st' = st := Option.some_inj.1 (hr'.symm.trans (replyOf_append hr z))
      simp [parsed, Parsed.view, hr, hr']

/-! ### Contents -/

theorem body_zero {ls bs : List Bytes} (h : body ls = some (0, bs)) : bs = [] := by
  induction ls with
  | nil => simpa [body] using h.symm
  | cons l ls ih =>
    rw [body] at h
    split_ifs at h with hl h0
    · exact ih h
    · simp_all

/-- The content lines are the last ones. -/
theorem body_suffix {ls bs : List Bytes} {n : UInt32} (h : body ls = some (n, bs)) : bs <:+ ls := by
  induction ls with
  | nil => simp_all [body]
  | cons l ls ih =>
    rw [body] at h
    split_ifs at h with hl h0
    · exact (ih h).trans (List.suffix_cons l ls)
    · obtain ⟨-, rfl⟩ : _ ∧ ls = bs := by simpa using h
      exact List.suffix_cons l ls

/-- Lines after the content length are content lines. -/
theorem body_append {ls bs : List Bytes} {n : UInt32} (h : body ls = some (n, bs)) (hn : n ≠ 0)
    (xs : List Bytes) : body (ls ++ xs) = some (n, bs ++ xs) := by
  induction ls with
  | nil => simp_all [body]
  | cons l ls ih =>
    rw [body] at h
    rw [List.cons_append, body]
    split_ifs at h with hl h0
    · rw [if_pos hl, if_pos h0]
      exact ih h
    · obtain ⟨rfl, rfl⟩ : _ = n ∧ ls = bs := by simpa using h
      rw [if_pos hl, if_neg h0]

/-- A cut line is the last content line, or the line of the content length. -/
theorem body_inLine {ts bs : List Bytes} {w : Bytes} {n : UInt32}
    (h : body (ts ++ [w]) = some (n, bs)) (hn : n ≠ 0) (z : Bytes) (zs : List Bytes) :
    (∃ bs₀, bs = bs₀ ++ [w] ∧ body (ts ++ (w ++ z) :: zs) = some (n, bs₀ ++ (w ++ z) :: zs)) ∨
      (bs = [] ∧ ∀ n' bs', body (ts ++ (w ++ z) :: zs) = some (n', bs') → bs' <:+ zs) := by
  induction ts with
  | nil =>
    rw [List.nil_append, body] at h
    split_ifs at h with hl h0
    · obtain ⟨rfl, -⟩ : (0 : UInt32) = n ∧ _ := by simpa [body] using h
      exact absurd rfl hn
    · obtain ⟨-, rfl⟩ : _ ∧ [] = bs := by simpa using h
      refine .inr ⟨rfl, fun n' bs' hb => ?_⟩
      rw [List.nil_append, body] at hb
      split_ifs at hb with h₁ h₂
      · exact body_suffix hb
      · obtain ⟨-, rfl⟩ : _ ∧ zs = bs' := by simpa using hb
        exact List.suffix_rfl
  | cons l ts ih =>
    rw [List.cons_append, body] at h
    rw [List.cons_append, body]
    split_ifs at h with hl h0
    · rw [if_pos hl, if_pos h0]
      exact ih h
    · obtain ⟨rfl, rfl⟩ : _ = n ∧ ts ++ [w] = bs := by simpa using h
      rw [if_pos hl, if_neg h0]
      exact .inl ⟨ts, rfl, rfl⟩

/-- The line that was cut is not written back as it was read: the content read in
    pieces ends it, or has the rest of the line of the content length. -/
theorem content_inLine_ne {v w z : Bytes} {ts zs bs : List Bytes} {n n' : UInt32} {bs' : List Bytes}
    (hv : lines v = z :: zs) (h : body (ts ++ [w]) = some (n, bs)) (hn : n ≠ 0)
    (h' : body (ts ++ (w ++ z) :: zs) = some (n', bs')) :
    terminate '\n' bs ++ v ≠ terminate '\n' bs' := by
  obtain ⟨hz, hzn⟩ := tokens_mem (l := v) (hv ▸ List.mem_cons_self : z ∈ lines v)
  rcases body_inLine h hn z zs with ⟨bs₀, rfl, hb⟩ | ⟨rfl, hb⟩
  · obtain ⟨-, rfl⟩ : _ ∧ _ = bs' := by simpa using hb.symm.trans h'
    obtain ⟨x, z, rfl⟩ := List.exists_cons_of_ne_nil hz
    have hx : x ≠ '\n' := by simpa using hzn x List.mem_cons_self
    simp [hx.symm]
  · obtain ⟨as, rfl⟩ := hb n' bs' h'
    intro heq
    have hlen := length_terminate_tokens_le (· == '\n') '\n' v
    rw [show tokens _ v = _ from hv] at hlen
    have hpos := List.length_pos_iff.2 hz
    have := congrArg List.length heq
    simp at hlen this
    omega

/-- What the lines of a message with a content set. -/
theorem parsed_content {cat : FsMsgCategory} {ty : FsMsgType}
    (hc : (cat = .api ∧ ty = .response) ∨ cat = .text) {ls bs : List Bytes} {n : UInt32}
    (h : body ls = some (n, bs)) :
    parsed cat ty ls = ⟨.undefined, n, terminate '\n' bs,
      ty = .request ∨ (0 < n ∧ (terminate '\n' bs).length = n.toNat)⟩ := by
  have hr : ¬(cat = .command ∧ ty = .reply) := by rcases hc with ⟨rfl, rfl⟩ | rfl <;> simp
  unfold parsed
  rw [if_neg hr, if_pos hc, h]

theorem parsed_content_none {cat : FsMsgCategory} {ty : FsMsgType}
    (hc : (cat = .api ∧ ty = .response) ∨ cat = .text) {ls : List Bytes} (h : body ls = none) :
    parsed cat ty ls = {} := by
  have hr : ¬(cat = .command ∧ ty = .reply) := by rcases hc with ⟨rfl, rfl⟩ | rfl <;> simp
  unfold parsed
  rw [if_neg hr, if_pos hc, h]

theorem terminate_eq_nil_iff {x : Char} {ts : List Bytes} : terminate x ts = [] ↔ ts = [] := by
  cases ts <;> simp

/-- A message with a content whose length was not read survives only as a request
    without a content. -/
theorem parsed_content_zero_iff {cat : FsMsgCategory} {ty : FsMsgType}
    (hc : (cat = .api ∧ ty = .response) ∨ cat = .text) {ls ls' bs' : List Bytes} {n' : UInt32}
    (hn : (parsed cat ty ls).nContentLength = 0) (h' : body ls' = some (n', bs'))
    (hb : (parsed cat ty ls').bComplete = true) :
    (parsed cat ty ls).view = (parsed cat ty ls').view ↔
      ty = .request ∧ body ls = some (0, []) ∧ bs' = [] := by
  cases h : body ls with
  | none => simp [Parsed.view, parsed_content_none hc h, hb]
  | some nb =>
    obtain ⟨n, bs⟩ := nb
    rw [parsed_content hc h] at hn
    obtain rfl : n = 0 := hn
    obtain rfl := body_zero h
    rw [parsed_content hc h'] at hb
    simp only [Parsed.view, parsed_content hc h, parsed_content hc h', hb, Prod.mk.injEq]
    simp only [terminate_nil, UInt32.lt_irrefl, false_and, or_false, decide_eq_true_eq, true_and,
      eq_comm (a := ([] : Bytes)), terminate_eq_nil_iff]
    exact and_comm

/-- The content of a message whose length was read survives when the rest of it is
    lines without an empty one. -/
theorem content_iff {p v t t' : Bytes} {ls ls' bs bs' : List Bytes} {n n' : UInt32}
    (hg : Grows p v t ls t' ls') (hp : p ≠ []) (hv : v ≠ []) (h : body ls = some (n, bs))
    (hn : n ≠ 0) (h' : body ls' = some (n', bs')) :
    terminate '\n' bs ++ v = terminate '\n' bs' ↔
      '\n' ∈ p.getLast? ∧ v = terminate '\n' (lines v) := by
  cases hg with
  | boundary hx =>
    obtain ⟨-, rfl⟩ : _ ∧ _ = bs' := by simpa using (body_append h hn (lines v)).symm.trans h'
    rw [terminate_append, List.append_cancel_left_eq]
    refine ⟨fun heq => ⟨?_, heq⟩, fun hr => hr.2⟩
    have hhead := head_terminate_tokens (· == '\n') '\n' v
    rcases hx with hx | hx
    · obtain ⟨x, hxl⟩ : ∃ x, p.getLast? = some x := ⟨_, List.getLast?_eq_some_getLast hp⟩
      rw [hx x hxl] at hxl
      exact hxl
    · obtain ⟨x, v, rfl⟩ := List.exists_cons_of_ne_nil hv
      rw [show terminate '\n' (tokens _ (x :: v)) = _ from heq.symm] at hhead
      simp [hx x rfl] at hhead
  | inLine hpn hls hvz =>
    subst hls
    exact ⟨fun heq => absurd heq (content_inLine_ne hvz h hn h'), fun hr => absurd hr.1 hpn⟩
  | inHeader hls _ =>
    subst hls
    obtain ⟨rfl, -⟩ : (0 : UInt32) = n ∧ _ := by simpa [body] using h
    exact absurd rfl hn

/-- A line of the content is read from the length that was read. -/
theorem body_length_eq {p v t t' : Bytes} {ls ls' bs bs' : List Bytes} {n n' : UInt32}
    (hg : Grows p v t ls t' ls') (h : body ls = some (n, bs)) (hn : n ≠ 0)
    (h' : body ls' = some (n', bs')) (hpn : '\n' ∈ p.getLast?) : n' = n := by
  cases hg with
  | boundary _ =>
    obtain ⟨rfl, -⟩ : n = n' ∧ _ := by simpa using (body_append h hn (lines v)).symm.trans h'
    rfl
  | inLine hpn' _ _ => exact absurd hpn hpn'
  | inHeader hls _ =>
    subst hls
    obtain ⟨rfl, -⟩ : (0 : UInt32) = n ∧ _ := by simpa [body] using h
    exact absurd rfl hn

/-! ## When a message survives -/

theorem cutOk_iff {p v c t : Bytes} {ls : List Bytes} {cat : FsMsgCategory} {ty : FsMsgType}
    (hv : v ≠ []) (hp : header p = some (c, t, ls)) (hc : categoryOf c = some cat)
    (ht : typeOf t = some ty) :
    CutOk p v ↔
      (cat = .command → ty = .reply → ∃ r ∈ ls.head?, (replyOf r).isSome) ∧
      ((cat = .api ∧ ty = .response) ∨ cat = .text →
        (∃ n bs, body ls = some (n, bs) ∧ n ≠ 0 ∧ '\n' ∈ p.getLast? ∧
            v = terminate '\n' (lines v)) ∨
          (ty = .request ∧ body ls = some (0, []) ∧
            ∀ c' t' ls' n bs, header (p ++ v) = some (c', t', ls') → body ls' = some (n, bs) →
              bs = [])) := by
  constructor
  · rintro (rfl | ⟨c', t', ls', cat', ty', hp', hc', ht', h⟩)
    · exact absurd rfl hv
    · obtain ⟨rfl, rfl, rfl⟩ : c = c' ∧ t = t' ∧ ls = ls' := by simpa using hp.symm.trans hp'
      obtain rfl : cat = cat' := Option.some_inj.1 (hc.symm.trans hc')
      obtain rfl : ty = ty' := Option.some_inj.1 (ht.symm.trans ht')
      exact h
  · intro h
    exact .inr ⟨c, t, ls, cat, ty, hp, hc, ht, h⟩

/-- A complete message has a content length and a content line by line, if it is of
    a kind that has any. -/
theorem body_of_complete {cat : FsMsgCategory} {ty : FsMsgType} {ls : List Bytes}
    (hc : (cat = .api ∧ ty = .response) ∨ cat = .text)
    (h : (parsed cat ty ls).bComplete = true) : ∃ n bs, body ls = some (n, bs) := by
  cases hb : body ls with
  | none => simp [parsed_content_none hc hb] at h
  | some nb => exact ⟨nb.1, nb.2, rfl⟩

/-- A message without a content has no content length. -/
theorem parsed_nContentLength {cat : FsMsgCategory} {ty : FsMsgType} (ls : List Bytes)
    (hc : ¬((cat = .api ∧ ty = .response) ∨ cat = .text)) :
    (parsed cat ty ls).nContentLength = 0 := by
  unfold parsed
  rw [if_neg hc]
  split_ifs
  · split
    · rfl
    · split <;> rfl
  · rfl

theorem parsed_replyStatus {cat : FsMsgCategory} {ty : FsMsgType} (ls : List Bytes)
    (hr : ¬(cat = .command ∧ ty = .reply)) : (parsed cat ty ls).replyStatus = .undefined := by
  unfold parsed
  rw [if_neg hr]
  split_ifs
  · split <;> rfl
  · rfl

/-- A request without a content is complete. -/
theorem parsed_request {cat : FsMsgCategory} {ty : FsMsgType} (ls : List Bytes)
    (h : ty = .request) (hc : ¬((cat = .api ∧ ty = .response) ∨ cat = .text)) :
    (parsed cat ty ls).bComplete = true := by
  unfold parsed
  rw [if_neg (by simp [h]), if_neg hc]
  exact decide_eq_true h

/-- What is lost of a message after `p`, when no content length was read, is not
    missed. -/
theorem stale_iff {p v c t t' : Bytes} {ls ls' : List Bytes} {cat : FsMsgCategory} {ty : FsMsgType}
    (hv : v ≠ []) (hp : header p = some (c, t, ls)) (hc : categoryOf c = some cat)
    (ht : typeOf t = some ty) (hm : header (p ++ v) = some (c, t', ls'))
    (hg : Grows p v t ls t' ls') (hb : (parsed cat ty ls').bComplete = true)
    (hn : (parsed cat ty ls).nContentLength = 0) :
    (parsed cat ty ls).view = (parsed cat ty ls').view ↔ CutOk p v := by
  rw [cutOk_iff hv hp hc ht]
  by_cases hr : cat = .command ∧ ty = .reply
  · obtain ⟨rfl, rfl⟩ := hr
    rw [parsed_reply_iff hg hb]
    simp
  · by_cases hcon : (cat = .api ∧ ty = .response) ∨ cat = .text
    · obtain ⟨n', bs', hb'⟩ := body_of_complete hcon hb
      rw [parsed_content_zero_iff hcon hn hb' hb]
      constructor
      · rintro ⟨hty, hbody, rfl⟩
        refine ⟨fun h₁ h₂ => absurd ⟨h₁, h₂⟩ hr, fun _ => .inr ⟨hty, hbody, ?_⟩⟩
        intro c₁ t₁ ls₁ n bs h₁ h₂
        obtain ⟨-, -, rfl⟩ : c = c₁ ∧ t' = t₁ ∧ ls' = ls₁ := by simpa using hm.symm.trans h₁
        exact (by simpa using hb'.symm.trans h₂ : _ ∧ [] = bs).2.symm
      · rintro ⟨-, h⟩
        rcases h hcon with ⟨n, bs, hbody, h0, -⟩ | ⟨hty, hbody, h⟩
        · rw [parsed_content hcon hbody] at hn
          exact absurd hn h0
        · exact ⟨hty, hbody, h c t' ls' n' bs' hm hb'⟩
    · have hpar : ∀ ls, parsed cat ty ls = { bComplete := ty = .request } := fun ls => by
        unfold parsed
        rw [if_neg hr, if_neg hcon]
      rw [hpar, hpar]
      exact ⟨fun _ => ⟨fun h₁ h₂ => absurd ⟨h₁, h₂⟩ hr, fun h => absurd h hcon⟩, fun _ => rfl⟩

namespace FsMessage

/-- A complete message has a header that says what it is. -/
theorem complete_header {M : Bytes} (h : (reset.append M).bComplete = true) :
    ∃ c t ls cat ty, header M = some (c, t, ls) ∧ categoryOf c = some cat ∧
      typeOf t = some ty ∧ (reset.append M).Says cat ty (parsed cat ty ls) := by
  by_cases hh : ∀ c t ls, header ([] ++ M) = some (c, t, ls) → categoryOf c = none
  · rw [(blank_reset.append_of_none hh).bComplete] at h
    simp at h
  · push Not at hh
    obtain ⟨c, t, ls, hhd, hc⟩ := hh
    obtain ⟨cat, hcat⟩ := Option.ne_none_iff_exists'.1 hc
    have hs := blank_reset.append_of_some hhd hcat
    cases ht : typeOf t with
    | none =>
      rw [hs.bComplete, ht] at h
      simp at h
    | some ty =>
      rw [ht] at hs
      exact ⟨c, t, ls, cat, ty, hhd, hcat, ht, hs⟩

theorem view_eq_iff {m m' : FsMessage} {cat : FsMsgCategory} {ty : FsMsgType} {q q' : Parsed}
    (h : m.Says cat ty q) (h' : m'.Says cat ty q') : m.view = m'.view ↔ q.view = q'.view := by
  rw [h.view, h'.view]
  simp [Parsed.view]

/-- A message whose content length was read in `p`, and the rest of it. -/
theorem content_view_iff {m : FsMessage} {p v c t t' : Bytes} {ls ls' : List Bytes}
    {cat : FsMsgCategory} {ty : FsMsgType} {ds : List Bytes} (hv : v ≠ [])
    (hp : header p = some (c, t, ls)) (hc : categoryOf c = some cat) (ht : typeOf t = some ty)
    (hg : Grows p v t ls t' ls') (hb : (parsed cat ty ls').bComplete = true)
    (hn : (parsed cat ty ls).nContentLength ≠ 0) (hm : m.Says cat ty (parsed cat ty ls))
    (hds : ds.flatten = v) :
    (m.appendAll ds).view = (cat, ty, (parsed cat ty ls').view) ↔ CutOk p v := by
  have hcon : (cat = .api ∧ ty = .response) ∨ cat = .text := by
    by_contra h
    exact hn (parsed_nContentLength ls h)
  have hr : ¬(cat = .command ∧ ty = .reply) := by rcases hcon with ⟨rfl, rfl⟩ | rfl <;> simp
  have hp0 : p ≠ [] := by
    rintro rfl
    simp [header, lines] at hp
  have hds0 : ds ≠ [] := by
    rintro rfl
    exact hv hds.symm
  obtain ⟨n', bs', hb'⟩ := body_of_complete hcon hb
  cases hbody : body ls with
  | none => simp [parsed_content_none hcon hbody] at hn
  | some nb =>
    obtain ⟨n, bs⟩ := nb
    obtain ⟨b, hs, hreq, hlen⟩ := hm.appendAll_content hn hds0
    rw [parsed_content hcon hbody] at hn hs hreq hlen
    rw [parsed_content hcon hb'] at hb
    dsimp only at hb
    have hiff := content_iff hg hp0 hv hbody hn hb'
    rw [cutOk_iff hv hp hc ht, hs.view, parsed_content hcon hb', Parsed.view]
    simp only [hds, Prod.mk.injEq, true_and, hb] at hlen hreq ⊢
    constructor
    · rintro ⟨hcont, -⟩
      obtain ⟨h₁, h₂⟩ := hiff.1 hcont
      exact ⟨fun h₃ h₄ => absurd ⟨h₃, h₄⟩ hr, fun _ => .inl ⟨n, bs, hbody, hn, h₁, h₂⟩⟩
    · rintro ⟨-, h⟩
      rcases h hcon with ⟨n₁, bs₁, h₁, -, h₃, h₄⟩ | ⟨-, h₁, -⟩
      · have hcont := hiff.2 ⟨h₃, h₄⟩
        refine ⟨hcont, ?_⟩
        -- Complete as a request, or by the same content of the same length.
        rcases of_decide_eq_true hb with hty | ⟨-, hl⟩
        · exact hreq (by simp [hty])
        · rw [hcont, hl, body_length_eq hg hbody hn hb' h₃] at hlen
          exact hlen rfl
      · rw [hbody, Option.some_inj, Prod.mk.injEq] at h₁
        exact absurd h₁.1 hn

/-- **Reading in pieces.** A message that is complete when it is read at once says the
    same when it is read in non-empty pieces exactly if the cut after its header is
    one that `CutOk` allows. -/
theorem appendAll_view_iff {M : Bytes} {chunks : List Bytes}
    (hM : (reset.append M).bComplete = true) (hne : ∀ d ∈ chunks, d ≠ [])
    (hf : chunks.flatten = M) :
    (reset.appendAll chunks).view = (reset.append M).view ↔
      CutOk (cutAtHeader [] chunks).1 (cutAtHeader [] chunks).2 := by
  obtain ⟨c', t', ls', cat, ty, hhd, hcat, hty, hmsg⟩ := complete_header hM
  have hb : (parsed cat ty ls').bComplete = true := hmsg.bComplete.symm.trans hM
  obtain ⟨m', s', d, ds', hblank, hall, hcut, hsome, hcat', hmem⟩ :=
    @Blank.appendAll_cut _ _ blank_reset chunks rfl (by simp [hf, hhd])
  rw [hcut, hall]
  simp only [List.nil_append, hf] at hcat'
  obtain ⟨⟨c, t, ls⟩, hp⟩ := Option.ne_none_iff_exists'.1 hsome
  rw [← hcat'] at hhd
  obtain ⟨rfl, hg⟩ := grows_of_header hp hhd
  have hpiv := hblank.append_of_some hp hcat
  have hraw : (m'.append d).rawMsg = s' ++ d := by rw [append_rawMsg, hblank.rawMsg]
  obtain ⟨l, hl, hct, -⟩ := header_eq_some_iff.1 hp
  have hne_cat := categoryOf_ne_unknown hcat
  by_cases hv : ds'.flatten = []
  · -- Nothing follows the header's chunk.
    have hds : ds' = [] := by
      rcases ds' with _ | ⟨x, xs⟩
      · rfl
      · simp [hne x (hmem x List.mem_cons_self)] at hv
    subst hds
    rw [List.flatten_nil, List.append_nil] at hhd
    obtain ⟨rfl, rfl⟩ : t = t' ∧ ls = ls' := by simpa using hp.symm.trans hhd
    rw [hty] at hpiv
    exact iff_of_true (hpiv.view.trans hmsg.view.symm) (.inl rfl)
  · cases ht : typeOf t with
    | none =>
      -- The type was cut: the message is stuck without one.
      rw [ht] at hpiv
      have hst := hpiv.appendAll_stale hne_cat rfl (hraw ▸ hl) hct (fun _ => rfl) (by simp) ds'
      refine iff_of_false (fun heq => ?_) ?_
      · have := congrArg (fun x => x.2.1) (hst.view.symm.trans (heq.trans hmsg.view))
        simp only [Option.getD_none] at this
        subst this
        exact absurd hty (by unfold typeOf; split_ifs <;> simp)
      · rintro (h | ⟨c₁, t₁, ls₁, cat₁, ty₁, h₁, -, h₃, -⟩)
        · exact hv h
        · obtain ⟨-, rfl, -⟩ : c' = c₁ ∧ t = t₁ ∧ ls = ls₁ := by simpa using hp.symm.trans h₁
          rw [ht] at h₃
          simp at h₃
    | some ty₀ =>
      rw [ht] at hpiv
      obtain rfl := hg.type_eq ht hty
      change (m'.append d).Says cat ty (parsed cat ty ls) at hpiv
      by_cases hn : (parsed cat ty ls).nContentLength = 0
      · have hst := hpiv.appendAll_stale hne_cat hn (hraw ▸ hl) hct (parsed_replyStatus ls)
          (fun h₁ h₂ => parsed_request ls h₁ h₂) ds'
        rw [view_eq_iff hst hmsg]
        exact stale_iff hv hp hcat ht hhd hg hb hn
      · rw [hmsg.view]
        exact content_view_iff hv hp hcat ht hg hb hn hpiv rfl

/-- An `api/response` cut after its `Content-Length` line survives. -/
theorem appendAll_view_apiResponse :
    (reset.appendAll ["Content-Type: api/response\nContent-Length: 3\n".toList, "ab\n".toList]).view =
      (reset.append "Content-Type: api/response\nContent-Length: 3\nab\n".toList).view := by
  refine (appendAll_view_iff (by decide) (by decide) (by decide)).2 (.inr ?_)
  exact ⟨"api".toList, "response".toList, ["Content-Length: 3".toList], .api, .response, by decide,
    by decide, by decide, by decide, fun _ => .inl ⟨3, [], by decide, by decide, by decide, by decide⟩⟩

/-- The greeting of a server, cut in the middle of its type, is never complete. -/
theorem appendAll_view_ne_cutType :
    ¬∀ (M : Bytes) (chunks : List Bytes), (reset.append M).bComplete = true →
      (∀ d ∈ chunks, d ≠ []) → chunks.flatten = M →
      (reset.appendAll chunks).view = (reset.append M).view := by
  intro h
  have := h "Content-Type: auth/request\n\n".toList
    ["Content-Type: auth/requ".toList, "est\n\n".toList] (by decide) (by decide) (by decide)
  exact absurd this (by decide)

end FsMessage

end Ssp
