import StatusBar.Proofs.Relaxed.Closed
import StatusBar.Proofs.Relaxed.Commas

/-!
# Segments of a text

Any text, whether it holds a document or not, is a sequence of strings, comments and single
characters outside of them; at the end a string or a block comment may be left open.  What is
read of the text is read off its segments: strings stay, comments leave their ends of lines, and
of the characters outside only the commas before a closing bracket are dropped.
-/

namespace StatusBar.Relaxed

open Document (IsQuotable)

/-! ### Segments -/

/-- A part of a text: a character of its own, a string or a comment. -/
inductive Segment where
  | code (c : Char)
  /-- What stands between the quotes of a string, or after the quote of one without an end. -/
  | string (body : List Char) (closed : Bool)
  | line (body : List Char)
  | block (body : List Char) (closed : Bool)
  deriving DecidableEq, Repr

/-- The characters of a segment. -/
def Segment.chars : Segment → List Char
  | .code c => [c]
  | .string body closed => '"' :: (body ++ if closed then ['"'] else [])
  | .line body => '/' :: '/' :: body
  | .block body closed => '/' :: '*' :: (body ++ if closed then ['*', '/'] else [])

/-- A text consists of segments.  A string ends at the first quote that no backslash takes, a
line comment before the end of its line, and a block comment at its first end. -/
inductive Lexes : List Char → List Segment → Prop
  | finish : Lexes [] []
  | code {c : Char} {text : List Char} {segments : List Segment} (hquote : c ≠ '"')
    (hslash : c = '/' → text.head? ≠ some '/' ∧ text.head? ≠ some '*') (h : Lexes text segments) :
    Lexes (c :: text) (.code c :: segments)
  | string {body text : List Char} {segments : List Segment} (hbody : IsQuotable body)
    (h : Lexes text segments) :
    Lexes ('"' :: (body ++ '"' :: text)) (.string body true :: segments)
  | openString {body : List Char}
    (hbody : ∀ part rest, IsQuotable part → body ≠ part ++ '"' :: rest) :
    Lexes ('"' :: body) [.string body false]
  | line {body text : List Char} {segments : List Segment} (hbody : '\n' ∉ body)
    (htext : ∀ c ∈ text.head?, c = '\n') (h : Lexes text segments) :
    Lexes ('/' :: '/' :: (body ++ text)) (.line body :: segments)
  | block {body text : List Char} {segments : List Segment} (hbody : ¬ ['*', '/'] <:+: body)
    (h : Lexes text segments) :
    Lexes ('/' :: '*' :: (body ++ '*' :: '/' :: text)) (.block body true :: segments)
  | openBlock {body : List Char} (hbody : ¬ ['*', '/'] <:+: body) :
    Lexes ('/' :: '*' :: body) [.block body false]

/-- The first character of some segments that is neither blank nor part of a comment. -/
def firstCode? : List Segment → Option Char
  | [] => none
  | .code c :: segments => if Text.isBlank c then firstCode? segments else some c
  | .string _ _ :: _ => some '"'
  | .line _ :: segments => firstCode? segments
  | .block _ _ :: segments => firstCode? segments

/-- Whether a closing bracket is that character. -/
def closes (segments : List Segment) : Bool :=
  firstCode? segments = some '\x7d' || firstCode? segments = some ']'

/-- What stays of a segment before others. -/
def Segment.stays (following : List Segment) : Segment → List Char
  | .code c => if c = ',' ∧ closes following = true then [] else [c]
  | .string body closed => (Segment.string body closed).chars
  | .line _ => []
  | .block body _ => body.filter (· = '\n')

/-- What stays of segments. -/
def stays : List Segment → List Char
  | [] => []
  | segment :: segments => segment.stays segments ++ stays segments

/-! ### Every text consists of segments -/

theorem Lexes.chars_eq {text : List Char} {segments : List Segment} (h : Lexes text segments) :
  segments.flatMap Segment.chars = text
  := by
  induction h with
  | finish => rfl
  | code _ _ _ ih => simp [Segment.chars, ih]
  | string _ _ ih => simp [Segment.chars, ih]
  | openString _ => simp [Segment.chars]
  | line _ _ _ ih => simp [Segment.chars, ih]
  | block _ _ ih => simp [Segment.chars, ih]
  | openBlock _ => simp [Segment.chars]

theorem exists_lexes (text : List Char) :
  ∃ segments, Lexes text segments
  := by
  -- By induction on the length, as a segment may be long.
  induction hlength : text.length using Nat.strong_induction_on generalizing text with
  | _ length ih =>
    subst hlength
    cases text with
    | nil => exact ⟨[], .finish⟩
    | cons c text =>
      by_cases hquote : c = '"'
      · subst hquote
        by_cases hend : ∃ body rest, IsQuotable body ∧ text = body ++ '"' :: rest
        · obtain ⟨body, rest, hbody, rfl⟩ := hend
          have hshorter : rest.length < ('"' :: (body ++ '"' :: rest)).length := by
            simp only [List.length_append, List.length_cons]
            omega
          obtain ⟨segments, h⟩ := ih rest.length hshorter rest rfl
          exact ⟨_, .string hbody h⟩
        · exact ⟨_, .openString fun part rest hpart heq => hend ⟨part, rest, hpart, heq⟩⟩
      by_cases hline : c = '/' ∧ text.head? = some '/'
      · obtain ⟨rfl, hhead⟩ := hline
        obtain ⟨body, rfl⟩ := List.head?_eq_some_iff.mp hhead
        by_cases hend : '\n' ∈ body
        · obtain ⟨body, rest, rfl, hbody⟩ := List.eq_append_cons_of_mem hend
          have hshorter : ('\n' :: rest).length < ('/' :: '/' :: (body ++ '\n' :: rest)).length := by
            simp only [List.length_append, List.length_cons]
            omega
          obtain ⟨segments, h⟩ := ih ('\n' :: rest).length hshorter ('\n' :: rest) rfl
          exact ⟨_, .line hbody (by simp) h⟩
        · have h := Lexes.line hend (by simp) .finish
          rw [List.append_nil] at h
          exact ⟨_, h⟩
      by_cases hblock : c = '/' ∧ text.head? = some '*'
      · obtain ⟨rfl, hhead⟩ := hblock
        obtain ⟨body, rfl⟩ := List.head?_eq_some_iff.mp hhead
        by_cases hend : ['*', '/'] <:+: body
        · obtain ⟨body, rest, rfl, hbody⟩ := exists_endOfBlock hend
          have hshorter : rest.length < ('/' :: '*' :: (body ++ '*' :: '/' :: rest)).length := by
            simp only [List.length_append, List.length_cons]
            omega
          obtain ⟨segments, h⟩ := ih rest.length hshorter rest rfl
          exact ⟨_, .block hbody h⟩
        · exact ⟨_, .openBlock hend⟩
      obtain ⟨segments, h⟩ := ih text.length (by simp) text rfl
      refine ⟨_, .code hquote (fun hslash => ⟨?_, ?_⟩) h⟩
      · exact fun hhead => hline ⟨hslash, hhead⟩
      · exact fun hhead => hblock ⟨hslash, hhead⟩

/-! ### Without comments -/

theorem ends_eq_nil {text : List Char} (h : '\n' ∉ text) :
  text.filter (· = '\n') = []
  := by
  rw [List.filter_eq_nil_iff]
  intro c hc hend
  rw [decide_eq_true_eq] at hend
  subst hend
  exact h hc

/-- Of a comment the ends of its lines stay. -/
theorem withoutComments_of_marked {text part rest : List Char}
    (h : marked .code text = mark true part ++ marked .code rest) :
  withoutComments text = part.filter (· = '\n') ++ withoutComments rest
  := by
  have hpart : kept (mark true part) = part.filter (· = '\n') := by
    simp [kept, mark, List.filter_map, Function.comp_def]
  rw [withoutComments_eq_kept, h, erasesComments_kept.append, hpart, ← withoutComments_eq_kept]

theorem withoutComments_string {body : List Char} (h : IsQuotable body) (text : List Char) :
  withoutComments ('"' :: (body ++ '"' :: text)) = '"' :: (body ++ '"' :: withoutComments text)
  := by
  have htoken := erasesComments_kept.token ⟨.quoted, _, .quoted h⟩ text
  rw [← withoutComments_eq_kept, ← withoutComments_eq_kept] at htoken
  simpa using htoken

theorem withoutComments_line {body text : List Char} (h : '\n' ∉ body)
    (htext : ∀ c ∈ text.head?, c = '\n') :
  withoutComments ('/' :: '/' :: (body ++ text)) = withoutComments text
  := by
  have hmarked : marked .code ('/' :: '/' :: (body ++ text))
      = mark true ('/' :: '/' :: body) ++ marked .code text := by
    cases text with
    | nil => simpa [mark, marked] using marked_lastLine h
    | cons c text =>
      obtain rfl := htext c rfl
      exact marked_line h text
  have hcomment : '\n' ∉ '/' :: '/' :: body := by simpa using h
  rw [withoutComments_of_marked hmarked, ends_eq_nil hcomment, List.nil_append]

theorem withoutComments_block {body : List Char} (h : ¬ ['*', '/'] <:+: body)
    (text : List Char) :
  withoutComments ('/' :: '*' :: (body ++ '*' :: '/' :: text))
    = body.filter (· = '\n') ++ withoutComments text
  := by
  rw [withoutComments_of_marked (marked_block h text)]
  simp

theorem withoutComments_openBlock {body : List Char} (h : ¬ ['*', '/'] <:+: body) :
  withoutComments ('/' :: '*' :: body) = body.filter (· = '\n')
  := by
  obtain ⟨afterStar, hblock⟩ := @marked_blockComment body false h (by simp) []
  have hmarked : marked .code ('/' :: '*' :: body)
      = mark true ('/' :: '*' :: body) ++ marked .code [] := by
    simpa [mark, marked] using hblock
  rw [withoutComments_of_marked hmarked]
  simp [withoutComments, withoutCommentsFrom]

/-- The ends of lines are gaps between what is read. -/
theorem isGap_ends (body : List Char) :
  IsGap (body.filter (· = '\n'))
  := by
  intro c hc
  obtain rfl : c = '\n' := by simpa using (List.mem_filter.mp hc).right
  rfl

theorem find?_gap {gap : List Char} (h : IsGap gap) (text : List Char) :
  (gap ++ text).find? (fun c => !Text.isBlank c) = text.find? (fun c => !Text.isBlank c)
  := by
  have hgap : gap.find? (fun c => !Text.isBlank c) = none := by
    rw [List.find?_eq_none]
    intro c hc
    simp [isBlank_of_isSpace (h c hc)]
  rw [List.find?_append, hgap, Option.none_or]

/-- The first character that is neither blank nor part of a comment is the first that is read
and not blank. -/
theorem Lexes.find?_withoutComments {text : List Char} {segments : List Segment}
    (h : Lexes text segments) :
  (withoutComments text).find? (fun c => !Text.isBlank c) = firstCode? segments
  := by
  induction h with
  | finish => rfl
  | @code c text segments hquote hslash _ ih =>
    rw [withoutComments, withoutCommentsFrom_code_cons hquote hslash, ← withoutComments, firstCode?,
      ← ih, List.find?_cons]
    cases Text.isBlank c <;> rfl
  | string hbody _ _ =>
    rw [withoutComments_string hbody]
    rfl
  | openString _ => rfl
  | line hbody htext _ ih => rw [withoutComments_line hbody htext, ih, firstCode?]
  | @block body text _ hbody _ ih =>
    rw [withoutComments_block hbody, find?_gap (isGap_ends body), ih, firstCode?]
  | @openBlock body hbody =>
    rw [withoutComments_openBlock hbody, ← List.append_nil (body.filter _),
      find?_gap (isGap_ends body)]
    rfl

theorem Lexes.closesNext_withoutComments {text : List Char} {segments : List Segment}
    (h : Lexes text segments) :
  closesNext (withoutComments text) = closes segments
  := by
  rw [closesNext, h.find?_withoutComments, closes]
  cases firstCode? segments with
  | none => rfl
  | some c => simp

/-! ### Without trailing commas -/

/-- What is read of a text is what stays of its segments. -/
theorem Lexes.stripChars_eq {text : List Char} {segments : List Segment}
    (h : Lexes text segments) :
  stripChars text = stays segments
  := by
  induction h with
  | finish => rfl
  | @code c text segments hquote hslash htext ih =>
    rw [stripChars, withoutComments, withoutCommentsFrom_code_cons hquote hslash, ← withoutComments,
      stays, ← ih, Segment.stays]
    by_cases hcomma : c = ','
    · subst hcomma
      rw [withoutTrailingCommas_comma, htext.closesNext_withoutComments]
      cases closes segments <;> rfl
    · rw [withoutTrailingCommas_of_ne hquote hcomma, if_neg fun h => hcomma h.left]
      rfl
  | @string body text _ hbody _ ih =>
    have hstring := withoutTrailingCommasFrom_string hbody (withoutComments text)
    rw [stripChars, withoutComments_string hbody, withoutTrailingCommas,
      withoutTrailingCommasFrom, hstring, ← stripChars, ih]
    simp [stays, Segment.stays, Segment.chars]
  | @openString body hbody =>
    have hstring := erasesComments_kept.keeps_openString rfl hbody
    rw [← withoutCommentsFrom_eq_kept] at hstring
    rw [stripChars, withoutComments, withoutCommentsFrom, withoutTrailingCommas,
      withoutTrailingCommasFrom, hstring]
    simp [stays, Segment.stays, Segment.chars]
  | line hbody htext _ ih =>
    rw [stripChars, withoutComments_line hbody htext, ← stripChars, ih]
    rfl
  | @block body text _ hbody _ ih =>
    rw [stripChars, withoutComments_block hbody,
      withoutTrailingCommas_plain (isGap_ends body).isPlain, ← stripChars, ih]
    rfl
  | @openBlock body hbody =>
    have hplain := withoutTrailingCommas_plain (isGap_ends body).isPlain []
    rw [List.append_nil] at hplain
    rw [stripChars, withoutComments_openBlock hbody, hplain]
    rfl

end StatusBar.Relaxed
