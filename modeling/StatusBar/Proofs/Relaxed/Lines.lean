import StatusBar.Proofs.Relaxed.Segments

/-!
# Lines of a text

What is read of a text keeps its lines: of each line some characters may be missing, but none
moves to another line and no line is lost.  So where reading fails, the line that the fault names
is a line of the text as it was written.
-/

namespace StatusBar.Relaxed

/-! ### Leaving out characters -/

/-- The first text is the second without some characters, of which none ends a line. -/
inductive LeavesOut : List Char → List Char → Prop
  | nil : LeavesOut [] []
  | keep (c : Char) {part text : List Char} (h : LeavesOut part text) :
    LeavesOut (c :: part) (c :: text)
  | drop {c : Char} (hc : c ≠ '\n') {part text : List Char} (h : LeavesOut part text) :
    LeavesOut part (c :: text)

/-- The lines of a text. -/
def lines (text : List Char) : List (List Char) :=
  Text.pieces (· = '\n') text

theorem LeavesOut.refl (text : List Char) :
  LeavesOut text text
  := by
  induction text with
  | nil => exact .nil
  | cons c text ih => exact .keep c ih

theorem LeavesOut.append {part text part' text' : List Char} (h : LeavesOut part text)
    (h' : LeavesOut part' text') :
  LeavesOut (part ++ part') (text ++ text')
  := by
  induction h with
  | nil => exact h'
  | keep c _ ih => exact .keep c ih
  | drop hc _ ih => exact .drop hc ih

/-- Everything but the ends of lines may be left out. -/
theorem leavesOut_ends (text : List Char) :
  LeavesOut (text.filter (· = '\n')) text
  := by
  induction text with
  | nil => exact .nil
  | cons c text ih =>
    by_cases hc : c = '\n'
    · rw [List.filter_cons_of_pos (by simpa using hc)]
      exact .keep c ih
    · rw [List.filter_cons_of_neg (by simpa using hc)]
      exact .drop hc ih

theorem leavesOut_nil {text : List Char} (h : '\n' ∉ text) :
  LeavesOut [] text
  := by
  have hleaves := leavesOut_ends text
  rwa [ends_eq_nil h] at hleaves

theorem LeavesOut.count_eq {part text : List Char} (h : LeavesOut part text) :
  part.count '\n' = text.count '\n'
  := by
  induction h with
  | nil => rfl
  | keep c _ ih => rw [List.count_cons, List.count_cons, ih]
  | drop hc _ ih => rw [List.count_cons_of_ne hc, ih]

theorem lines_end (text : List Char) :
  lines ('\n' :: text) = [] :: lines text
  := by
  rw [lines, Text.pieces, if_pos (by decide), lines]

theorem lines_cons {c : Char} (hc : c ≠ '\n') {text line : List Char} {more : List (List Char)}
    (h : lines text = line :: more) :
  lines (c :: text) = (c :: line) :: more
  := by
  rw [lines] at h
  rw [lines, Text.pieces, if_neg (by simpa using hc), h]

theorem exists_lines (text : List Char) :
  ∃ line more, lines text = line :: more
  := List.exists_cons_of_ne_nil (Text.pieces_ne_nil _ text)

/-- Each line is part of the line of the same number. -/
theorem LeavesOut.lines {part text : List Char} (h : LeavesOut part text) :
  List.Forall₂ List.Sublist (lines part) (lines text)
  := by
  induction h with
  | nil => exact .cons (List.Sublist.refl []) .nil
  | @keep c part text _ ih =>
    by_cases hc : c = '\n'
    · subst hc
      rw [lines_end, lines_end]
      exact .cons (List.Sublist.refl []) ih
    · obtain ⟨line, more, hpart⟩ := exists_lines part
      obtain ⟨line', more', htext⟩ := exists_lines text
      rw [hpart, htext] at ih
      rw [lines_cons hc hpart, lines_cons hc htext]
      cases ih with
      | cons hline hmore => exact .cons (hline.cons_cons c) hmore
  | @drop c hc part text _ ih =>
    obtain ⟨line, more, hpart⟩ := exists_lines part
    obtain ⟨line', more', htext⟩ := exists_lines text
    rw [hpart, htext] at ih
    rw [hpart, lines_cons hc htext]
    cases ih with
    | cons hline hmore => exact .cons (hline.cons c) hmore

/-- What is left out before a character that stays. -/
theorem LeavesOut.exists_of_cons {c : Char} {part text : List Char}
    (h : LeavesOut (c :: part) text) :
  ∃ gap rest, text = gap ++ c :: rest ∧ LeavesOut [] gap ∧ LeavesOut part rest
  := by
  generalize hwhole : c :: part = whole at h
  induction h with
  | nil => cases hwhole
  | keep d h =>
    cases hwhole
    exact ⟨[], _, rfl, .nil, h⟩
  | @drop d hd part text _ ih =>
    obtain ⟨gap, rest, rfl, hgap, hrest⟩ := ih hwhole
    exact ⟨d :: gap, rest, rfl, .drop hd hgap, hrest⟩

/-- A place of the part is a place of the text, before the same character. -/
theorem LeavesOut.exists_split {part rest text : List Char} (h : LeavesOut (part ++ rest) text) :
  ∃ before after, text = before ++ after ∧ LeavesOut part before ∧ LeavesOut rest after
    ∧ after.head? = rest.head?
  := by
  induction part generalizing text with
  | nil =>
    cases rest with
    | nil => exact ⟨text, [], (List.append_nil text).symm, h, .nil, rfl⟩
    | cons c rest =>
      obtain ⟨gap, after, rfl, hgap, hafter⟩ := h.exists_of_cons
      exact ⟨gap, c :: after, rfl, hgap, .keep c hafter, rfl⟩
  | cons c part ih =>
    obtain ⟨gap, text', rfl, hgap, htext⟩ := h.exists_of_cons
    obtain ⟨before, after, rfl, hbefore, hafter, hhead⟩ := ih htext
    use gap ++ c :: before, after, by simp
    exact ⟨hgap.append (.keep c hbefore), hafter, hhead⟩

/-! ### Segments -/

theorem Lexes.not_mem_of_line {text body : List Char} {segments : List Segment}
    (h : Lexes text segments) (hline : .line body ∈ segments) :
  '\n' ∉ body
  := by
  induction h with
  | finish => cases hline
  | code _ _ _ ih => exact ih (by simpa using hline)
  | string _ _ ih => exact ih (by simpa using hline)
  | openString _ => cases List.mem_singleton.mp hline
  | line hbody _ _ ih =>
    obtain heq | hmem := List.mem_cons.mp hline
    · cases heq
      exact hbody
    · exact ih hmem
  | block _ _ ih => exact ih (by simpa using hline)
  | openBlock _ => cases List.mem_singleton.mp hline

theorem Segment.leavesOut_stays (following : List Segment) {segment : Segment}
    (hline : ∀ body, segment = .line body → '\n' ∉ body) :
  LeavesOut (segment.stays following) segment.chars
  := by
  cases segment with
  | code c =>
    rw [stays, chars]
    split
    case isTrue h =>
      rw [h.left]
      exact leavesOut_nil (by decide)
    case isFalse => exact .refl [c]
  | string body closed => exact .refl _
  | line body =>
    apply leavesOut_nil
    simpa [chars] using hline body rfl
  | block body closed =>
    have hrest : LeavesOut [] (if closed then ['*', '/'] else []) := by
      apply leavesOut_nil
      cases closed <;> decide
    have hbody := (leavesOut_ends body).append hrest
    rw [List.append_nil] at hbody
    exact .drop (by decide) (.drop (by decide) hbody)

/-- What stays of some segments leaves out characters of theirs, and does not depend on how much
stays of those that follow. -/
theorem exists_stays_append {before : List Segment}
    (hline : ∀ body, .line body ∈ before → '\n' ∉ body) (after : List Segment) :
  ∃ part, stays (before ++ after) = part ++ stays after
    ∧ LeavesOut part (before.flatMap Segment.chars)
  := by
  induction before with
  | nil => exact ⟨[], rfl, .nil⟩
  | cons segment before ih =>
    obtain ⟨part, hpart, hleaves⟩ := ih fun body hbody => hline body (List.mem_cons_of_mem _ hbody)
    have hsegment : LeavesOut (segment.stays (before ++ after)) segment.chars := by
      apply Segment.leavesOut_stays
      rintro body rfl
      exact hline body List.mem_cons_self
    use segment.stays (before ++ after) ++ part
    rw [List.cons_append, stays, hpart, List.append_assoc, List.flatMap_cons]
    exact ⟨rfl, hsegment.append hleaves⟩

/-- What is read of a text leaves out characters that end no line. -/
theorem leavesOut_stripChars (text : List Char) :
  LeavesOut (stripChars text) text
  := by
  obtain ⟨segments, h⟩ := exists_lexes text
  obtain ⟨part, hpart, hleaves⟩ := exists_stays_append (fun _ => h.not_mem_of_line) []
  rw [List.append_nil, stays, List.append_nil, ← h.stripChars_eq] at hpart
  rwa [hpart, ← h.chars_eq]

/-- A string stays as it is. -/
theorem Lexes.exists_of_string {text : List Char} {before after : List Segment} {body : List Char}
    {closed : Bool} (h : Lexes text (before ++ .string body closed :: after)) :
  ∃ part, stripChars text = part ++ (Segment.string body closed).chars ++ stays after
    ∧ LeavesOut part (before.flatMap Segment.chars)
  := by
  have hline : ∀ body, .line body ∈ before → '\n' ∉ body :=
    fun body hbody => h.not_mem_of_line (List.mem_append_left _ hbody)
  obtain ⟨part, hpart, hleaves⟩ := exists_stays_append hline (.string body closed :: after)
  use part
  rw [h.stripChars_eq, hpart, List.append_assoc]
  exact ⟨rfl, hleaves⟩

/-! ### Places -/

/-- The characters of a text that end within its first bytes. -/
def charsWithin : (bytes : Nat) → List Char → List Char
  | _, [] => []
  | bytes, c :: text =>
    if c.utf8Size ≤ bytes then c :: charsWithin (bytes - c.utf8Size) text else []

/-- The bytes of a text that count as read where reading fails. -/
def bytesRead (text : List Char) (failure : Failure) : Nat :=
  byteLength text - byteLength failure.rest + failure.ahead

theorem charsWithin_zero (text : List Char) :
  charsWithin 0 text = []
  := by
  cases text with
  | nil => rfl
  | cons c text =>
    have hsize := c.utf8Size_pos
    rw [charsWithin, if_neg (by omega)]

theorem prefix_charsWithin (bytes : Nat) (text : List Char) :
  charsWithin bytes text <+: text
  := by
  induction text generalizing bytes with
  | nil => exact List.nil_prefix
  | cons c text ih =>
    rw [charsWithin]
    split
    · exact (List.prefix_cons_inj c).mpr (ih _)
    · exact List.nil_prefix

/-- A place lies as many lines further on as lines end before it. -/
theorem line_advance (place : Place) (bytes : Nat) (text : List Char) :
  (Place.advance place bytes text).line = place.line + (charsWithin bytes text).count '\n'
  := by
  fun_induction Place.advance place bytes text
  case case1 => rfl
  case case2 =>
    rw [charsWithin_zero]
    rfl
  case case3 place bytes c rest hsize =>
    rw [charsWithin, if_neg (by omega)]
    rfl
  case case4 place bytes rest hsize ih =>
    have hend : '\n'.utf8Size = 1 := rfl
    rw [ih, charsWithin, if_pos (by omega), hend, Nat.succ_sub_one, List.count_cons_self]
    rw [Nat.add_assoc, Nat.add_comm 1]
  case case5 place bytes c rest hsize hc ih =>
    rw [ih, charsWithin, if_pos (by omega), List.count_cons_of_ne hc]

/-- What was read of a text where reading failed. -/
def readPart (text : List Char) (failure : Failure) : List Char :=
  charsWithin (bytesRead text failure) text

/-- What was not yet read of a text where reading failed. -/
def unreadPart (text : List Char) (failure : Failure) : List Char :=
  text.drop (readPart text failure).length

theorem readPart_append_unreadPart (text : List Char) (failure : Failure) :
  readPart text failure ++ unreadPart text failure = text
  := List.prefix_iff_eq_append.mp (prefix_charsWithin _ text)

/-- A failure within what stays of a text lies between two parts of the text itself: what stays
of the first was read, what stays of the second was not, and the same character comes next. -/
structure LiesBetween (failure : Failure) (text before after : List Char) : Prop where
  whole : text = before ++ after
  read : LeavesOut (readPart (stripChars text) failure) before
  unread : LeavesOut (unreadPart (stripChars text) failure) after
  next : after.head? = (unreadPart (stripChars text) failure).head?

/-- The line that a fault names is the line of the text that the failure lies on. -/
theorem line_fault (text : List Char) (failure : Failure) :
  ∃ before after, LiesBetween failure text before after
    ∧ (failure.fault (stripChars text)).place.line = 1 + before.count '\n'
  := by
  have hleaves := leavesOut_stripChars text
  rw [← readPart_append_unreadPart (stripChars text) failure] at hleaves
  obtain ⟨before, after, htext, hbefore, hafter, hnext⟩ := hleaves.exists_split
  use before, after
  constructor
  · exact ⟨htext, hbefore, hafter, hnext⟩
  · rw [Failure.fault, line_advance, ← hbefore.count_eq]
    rfl

theorem exists_failure {text : String} {fault : Fault} (h : read text = .error fault) :
  ∃ failure, Document.readChars (stripChars text.toList) = .error failure
    ∧ fault = failure.fault (stripChars text.toList)
  := by
  rw [read, Document.read, strip, String.toList_ofList] at h
  cases hread : Document.readChars (stripChars text.toList) with
  | ok doc =>
    rw [hread] at h
    cases h
  | error failure =>
    rw [hread] at h
    cases h
    exact ⟨failure, rfl, rfl⟩

/-- Of any text, comments and the commas before closing brackets are taken out, all strings stay
as they are, and so do the lines.  A fault of reading names the line of the text as it was
written. -/
theorem strip_keeps_lines (text : String) :
  (∃ segments, Lexes text.toList segments)
    ∧ (∀ segments, Lexes text.toList segments →
      segments.flatMap Segment.chars = text.toList ∧ (strip text).toList = stays segments)
    ∧ (∀ before body closed after, Lexes text.toList (before ++ .string body closed :: after) →
      ∃ part, (strip text).toList = part ++ (Segment.string body closed).chars ++ stays after
        ∧ LeavesOut part (before.flatMap Segment.chars))
    ∧ (strip text).toList.count '\n' = text.toList.count '\n'
    ∧ List.Forall₂ List.Sublist (lines (strip text).toList) (lines text.toList)
    ∧ ∀ fault, read text = .error fault →
      ∃ failure before after, Document.readChars (strip text).toList = .error failure
        ∧ LiesBetween failure text.toList before after
        ∧ fault.place.line = 1 + before.count '\n'
  := by
  have hleaves := leavesOut_stripChars text.toList
  simp only [strip, String.toList_ofList]
  refine ⟨exists_lexes text.toList, ?_, ?_, hleaves.count_eq, hleaves.lines, ?_⟩
  · intro segments h
    exact ⟨h.chars_eq, h.stripChars_eq⟩
  · intro before body closed after h
    exact h.exists_of_string
  · intro fault h
    obtain ⟨failure, hfailure, rfl⟩ := exists_failure h
    obtain ⟨before, after, hlies, hline⟩ := line_fault text.toList failure
    exact ⟨failure, before, after, hfailure, hlies, hline⟩

/-- A bracket in a string and a comma before a comment. -/
theorem strip_keeps_lines_bracket :
  ∃ before after fault,
    Lexes "[\",]\",//\n]x".toList (before ++ .string [',', ']'] true :: after)
      ∧ (strip "[\",]\",//\n]x").toList = stays (before ++ .string [',', ']'] true :: after)
      ∧ (∃ part, (strip "[\",]\",//\n]x").toList
          = part ++ ['"', ',', ']', '"'] ++ ['\n', ']', 'x']
        ∧ LeavesOut part (before.flatMap Segment.chars))
      ∧ read "[\",]\",//\n]x" = .error fault
      ∧ ∃ failure before after, LiesBetween failure "[\",]\",//\n]x".toList before after
        ∧ fault.place.line = 1 + before.count '\n'
  := by
  obtain ⟨-, hstays, hstring, -, -, hfault⟩ := strip_keeps_lines "[\",]\",//\n]x"
  have hend : Lexes ['\n', ']', 'x'] [.code '\n', .code ']', .code 'x'] :=
    .code (by decide) (by decide) (.code (by decide) (by decide)
      (.code (by decide) (by decide) .finish))
  have hcomment : Lexes [',', '/', '/', '\n', ']', 'x']
      [.code ',', .line [], .code '\n', .code ']', .code 'x'] :=
    .code (by decide) (by decide) (@Lexes.line [] ['\n', ']', 'x'] _ (by decide) (by simp) hend)
  have hquoted : Lexes ('"' :: ([',', ']'] ++ '"' :: [',', '/', '/', '\n', ']', 'x'])) _ :=
    .string (.char (by decide) (by decide) (.char (by decide) (by decide) .nil)) hcomment
  have hlexes : Lexes "[\",]\",//\n]x".toList ([.code '['] ++ .string [',', ']'] true :: _) :=
    @Lexes.code '[' _ _ (by decide) (by decide) hquoted
  have hread : read "[\",]\",//\n]x" = .error ⟨.trailingCharacters, ⟨2, 2⟩⟩ := rfl
  have hafter : stays [.code ',', .line [], .code '\n', .code ']', .code 'x']
      = ['\n', ']', 'x'] := by
    decide
  have hkept := hstring _ _ _ _ hlexes
  rw [hafter] at hkept
  obtain ⟨failure, before, after, -, hlies, hplace⟩ := hfault _ hread
  use [.code '['], [.code ',', .line [], .code '\n', .code ']', .code 'x'],
    ⟨.trailingCharacters, ⟨2, 2⟩⟩, hlexes, (hstays _ hlexes).right, hkept, hread
  exact ⟨failure, before, after, hlies, hplace⟩

end StatusBar.Relaxed
