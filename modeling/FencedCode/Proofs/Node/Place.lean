import FencedCode.Proofs.LineIndex.Places
import FencedCode.Proofs.Node.FencedPlace

/-!
# What the place of a node leaves out

The bytes of a construct are what its node skips at the start, what the node takes up, and the
terminator that is left out. The main statement says this of every span whose ends lie between
characters, wherever they are, so that no cut divides a character and no node ends before it starts.
-/

namespace FencedCode

open Markdown (Span)

namespace Text

variable {cs : List Char} {m n : Nat}

/-- Two offsets between characters divide a text into three parts. -/
private theorem IsRange.exists_eq_append (h : IsRange cs m n) : ∃ before mid after,
    cs = before ++ mid ++ after ∧ byteLength before = m ∧ byteLength (before ++ mid) = n := by
  obtain ⟨before, rest, hbefore, rfl⟩ := h.isBoundary_start
  obtain ⟨upto, after, hupto, rfl⟩ := h.isBoundary_stop
  obtain ⟨mid, rfl⟩ := prefix_of_byteLength_le (hbefore.symm.trans hupto) h.le
  exact ⟨before, mid, after, hupto, rfl, rfl⟩

private theorem isRange_append (before mid after : List Char) :
    IsRange (before ++ mid ++ after) (byteLength before) (byteLength (before ++ mid)) := by
  constructor
  · rw [byteLength_append]
    omega
  · exact ⟨before, mid ++ after, List.append_assoc _ _ _, rfl⟩
  · exact ⟨before ++ mid, after, rfl, rfl⟩

end Text

namespace Markdown.Span

variable {text lead body after : List Char}

/-- Whether the ends of a span lie between characters of a text, or past its end. -/
structure EndsBetween (s : Span) (text : List Char) : Prop where
  isBoundary_start : Text.IsBoundary text (min s.start (Text.byteLength text))
  isBoundary_stop : Text.IsBoundary text (min s.stop (Text.byteLength text))

/-- The part of such a span inside the text is one of its characters. -/
private theorem EndsBetween.isRange_clamp {s : Span} (h : s.EndsBetween text) :
    Text.IsRange text (s.clamp (Text.byteLength text)).start
      (s.clamp (Text.byteLength text)).stop := by
  refine ⟨Nat.le_max_right _ _, h.isBoundary_start, ?_⟩
  rw [clamp]
  rcases Nat.le_total (min s.stop (Text.byteLength text)) (min s.start (Text.byteLength text))
    with hle | hle
  · simpa only [Nat.max_eq_right hle] using h.isBoundary_start
  · simpa only [Nat.max_eq_left hle] using h.isBoundary_stop

/-- A span loses its last character when that is the one to be left out. -/
theorem dropLast?_append (h : text = lead ++ body ++ after) (c : Char) :
    (Span.mk (Text.byteLength lead) (Text.byteLength (lead ++ body))).dropLast? text c =
      if body.getLast? = some c then
        some ⟨Text.byteLength lead, Text.byteLength (lead ++ body.dropLast)⟩
      else none := by
  rw [dropLast?_eq h]
  rcases List.eq_nil_or_concat body with rfl | ⟨init, last, rfl⟩
  · simp
  · have hpos := last.utf8Size_pos
    have hlt : Text.byteLength lead < Text.byteLength (lead ++ (init ++ [last])) := by
      simp only [Text.byteLength_append, Text.byteLength_cons]
      omega
    rw [List.concat_eq_append, ← List.append_assoc, List.dropLast_concat, List.dropLast_concat,
      List.getLast?_concat, List.getLast?_concat, List.append_assoc]
    simp only [hlt, true_and]

/-- Whether `cut` is what is left out for a terminator at the end of `kept ++ cut`: a line feed,
with the carriage return that stands before it. -/
structure CutsTerminator (kept cut : List Char) : Prop where
  cases : cut = [] ∨ cut = ['\n'] ∨ cut = ['\r', '\n']
  ne_nil : (kept ++ cut).getLast? = some '\n' → cut ≠ []
  getLast?_ne : cut = ['\n'] → kept.getLast? ≠ some '\r'

/-- A span loses its terminator. -/
theorem exists_dropTerminator (h : text = lead ++ body ++ after) : ∃ kept cut,
    body = kept ++ cut ∧ CutsTerminator kept cut ∧
      (Span.mk (Text.byteLength lead) (Text.byteLength (lead ++ body))).dropTerminator text =
        ⟨Text.byteLength lead, Text.byteLength (lead ++ kept)⟩ := by
  by_cases hfeed : body.getLast? = some '\n'
  · obtain ⟨line, rfl⟩ := List.getLast?_eq_some_iff.mp hfeed
    have hline : text = lead ++ line ++ ('\n' :: after) := by
      rw [h]
      simp
    have hdrop := dropLast?_append hline '\r'
    rw [dropTerminator, dropLast?_append h, if_pos hfeed, List.dropLast_concat]
    by_cases hreturn : line.getLast? = some '\r'
    · obtain ⟨kept, rfl⟩ := List.getLast?_eq_some_iff.mp hreturn
      rw [if_pos hreturn, List.dropLast_concat] at hdrop
      refine ⟨kept, ['\r', '\n'], by simp, ⟨by simp, by simp, by simp⟩, ?_⟩
      simp only [hdrop, Option.getD_some]
    · rw [if_neg hreturn] at hdrop
      refine ⟨line, ['\n'], rfl, ⟨by simp, by simp, fun _ ↦ hreturn⟩, ?_⟩
      simp only [hdrop, Option.getD_none]
  · refine ⟨body, [], by simp, ⟨by simp, ?_, by simp⟩, ?_⟩
    · rw [List.append_nil]
      exact fun hlast ↦ absurd hlast hfeed
    · rw [dropTerminator, dropLast?_append h, if_neg hfeed]

end Markdown.Span

/-- A text starts with the prefix of its first line, which ends before another character or with the
line. -/
private theorem ContainerPrefix.exists_eq_of_firstLine_append (cs : List Char) : ∃ rest,
    cs = ContainerPrefix.of (firstLine cs) ++ rest ∧
      (∀ c ∈ ContainerPrefix.of (firstLine cs), c ≠ '\n' ∧ ContainerPrefix.isMember c = true) ∧
      ∀ c, rest.head? = some c → c = '\n' ∨ ContainerPrefix.isMember c = false := by
  have hline : firstLine cs ++ cs.dropWhile (· != '\n') = cs := List.takeWhile_append_dropWhile
  have hprefix : ContainerPrefix.of (firstLine cs) ++
      (firstLine cs).dropWhile ContainerPrefix.isMember = firstLine cs :=
    List.takeWhile_append_dropWhile
  refine ⟨(firstLine cs).dropWhile ContainerPrefix.isMember ++ cs.dropWhile (· != '\n'), ?_,
    fun c hc ↦ ⟨?_, List.mem_takeWhile_imp hc⟩, fun c hc ↦ ?_⟩
  · rw [← List.append_assoc, hprefix, hline]
  · have hmem : c ∈ firstLine cs := (List.takeWhile_prefix _).subset hc
    simpa using List.mem_takeWhile_imp hmem
  · have hother := List.head?_dropWhile_not ContainerPrefix.isMember (firstLine cs)
    have hfeed := List.head?_dropWhile_not (· != '\n') cs
    rw [List.head?_append] at hc
    cases hhead : ((firstLine cs).dropWhile ContainerPrefix.isMember).head? with
    | some d =>
      rw [hhead] at hc hother
      obtain rfl : d = c := Option.some.inj hc
      exact .inr (by simpa using hother)
    | none =>
      rw [hhead, Option.none_or] at hc
      rw [hc] at hfeed
      exact .inl (by simpa using hfeed)

namespace NodeKind

variable {k : NodeKind} {text : List Char} {s : Span}

/-- What a node of a kind skips of the text that its construct takes up. -/
def skipped (k : NodeKind) (taken : List Char) : List Char :=
  if k.isVerbatim then ContainerPrefix.of (firstLine taken) else []

/-- A construct is what its node skips, and the rest. Only code and HTML skip anything: the quote
markers and blanks at the start of the first line, all there are. -/
private theorem exists_eq_skipped_append (k : NodeKind) (taken : List Char) : ∃ rest,
    taken = k.skipped taken ++ rest ∧ (k.isVerbatim = false → k.skipped taken = []) ∧
      (∀ c ∈ k.skipped taken, c ≠ '\n' ∧ ContainerPrefix.isMember c = true) ∧
      (k.isVerbatim = true →
        ∀ c, rest.head? = some c → c = '\n' ∨ ContainerPrefix.isMember c = false) := by
  unfold skipped
  cases k.isVerbatim with
  | true =>
    obtain ⟨rest, htaken, hmember, hhead⟩ := ContainerPrefix.exists_eq_of_firstLine_append taken
    exact ⟨rest, htaken, nofun, hmember, fun _ ↦ hhead⟩
  | false => exact ⟨taken, rfl, fun _ ↦ rfl, by simp, nofun⟩

/-- The part of a span that is inside a text and behind what a node skips. -/
def behind (k : NodeKind) (text : List Char) (s : Span) : Span :=
  let inside := s.clamp (Text.byteLength text)
  ⟨inside.start + Text.byteLength (k.skipped (Text.slice inside.start inside.stop text)),
    inside.stop⟩

/-- The node of a construct takes up what is behind the prefix, without the terminator. -/
theorem span_eq (k : NodeKind) (text : List Char) (s : Span) :
    k.span text s = (k.behind text s).dropTerminator text := by
  rw [span, behind, skipped, apply_ite Text.byteLength, ContainerPrefix.byteLength_eq]
  rfl

/-- The spans on the way from that of a construct to that of its node: the part inside the text,
what is left of it behind the prefix, the same without a line feed at its end, and the node's. -/
def spans (k : NodeKind) (text : List Char) (s : Span) : List Span :=
  [s.clamp (Text.byteLength text), k.behind text s] ++
    ((k.behind text s).dropLast? text '\n').toList ++ [k.span text s]

/-- How a span divides a text for the node of its construct: what stands before, what the node skips
and takes up, the terminator that it leaves out, and what comes behind. -/
structure Divides (k : NodeKind) (text : List Char) (s : Span)
    (before skipped kept cut after : List Char) : Prop where
  text_eq : text = before ++ skipped ++ kept ++ cut ++ after
  start_eq : Text.byteLength before = min s.start (Text.byteLength text)
  stop_eq : Text.byteLength (before ++ skipped ++ kept ++ cut) =
    max (min s.stop (Text.byteLength text)) (min s.start (Text.byteLength text))
  /-- Only code and HTML skip anything: quote markers and blanks of the first line. -/
  skipped_eq_nil : k.isVerbatim = false → skipped = []
  isMember : ∀ c ∈ skipped, c ≠ '\n' ∧ ContainerPrefix.isMember c = true
  /-- They skip all there are, up to another character or the end of the line. -/
  head : k.isVerbatim = true →
    ∀ c, (kept ++ cut).head? = some c → c = '\n' ∨ ContainerPrefix.isMember c = false
  cuts : Span.CutsTerminator kept cut

/-- A span whose ends lie between characters divides the text for its node. -/
theorem exists_divides (k : NodeKind) (h : s.EndsBetween text) : ∃ before skipped kept cut after,
    k.Divides text s before skipped kept cut after ∧
      k.behind text s = ⟨Text.byteLength (before ++ skipped),
        Text.byteLength (before ++ skipped ++ (kept ++ cut))⟩ ∧
      k.span text s =
        ⟨Text.byteLength (before ++ skipped), Text.byteLength (before ++ skipped ++ kept)⟩ := by
  obtain ⟨before, taken, after, htext, hstart, hstop⟩ := h.isRange_clamp.exists_eq_append
  obtain ⟨body, htaken, hnone, hmember, hhead⟩ := k.exists_eq_skipped_append taken
  have hslice : Text.slice (s.clamp (Text.byteLength text)).start
      (s.clamp (Text.byteLength text)).stop text = taken := by
    rw [← hstart, ← hstop, htext, Text.slice_append]
  have hupto : before ++ taken = before ++ k.skipped taken ++ body := by
    rw [List.append_assoc, ← htaken]
  have hbehind : k.behind text s = ⟨Text.byteLength (before ++ k.skipped taken),
      Text.byteLength (before ++ k.skipped taken ++ body)⟩ := by
    rw [behind, hslice, ← hstart, ← hstop, hupto, Text.byteLength_append before]
  obtain ⟨kept, cut, hbody, hcut, hdrop⟩ := Span.exists_dropTerminator
    (show text = (before ++ k.skipped taken) ++ body ++ after by rw [htext, hupto])
  rw [← hbehind, ← span_eq] at hdrop
  rw [hbody] at hupto hhead hbehind
  rw [← List.append_assoc] at hupto
  refine ⟨before, k.skipped taken, kept, cut, after,
    ⟨?_, hstart, ?_, hnone, hmember, hhead, hcut⟩, hbehind, hdrop⟩
  · rw [htext, hupto]
  · rw [← hupto, hstop]
    rfl

/-- The spans on the way to the node's divide no character. -/
theorem isRange_of_mem_spans (h : s.EndsBetween text) {r : Span} (hr : r ∈ k.spans text s) :
    Text.IsRange text r.start r.stop := by
  obtain ⟨before, skipped, kept, cut, after, hdivides, hbehind, hspan⟩ := k.exists_divides h
  have htext : text = before ++ skipped ++ (kept ++ cut) ++ after := by
    rw [hdivides.text_eq]
    simp
  simp only [spans, List.mem_append, List.mem_cons, List.not_mem_nil, or_false,
    Option.mem_toList] at hr
  rcases hr with ((rfl | rfl) | hr) | rfl
  · exact h.isRange_clamp
  · rw [hbehind, htext]
    exact Text.isRange_append _ _ _
  · rw [hbehind, Span.dropLast?_append htext] at hr
    split at hr
    · next hfeed =>
      obtain ⟨init, hinit⟩ := List.getLast?_eq_some_iff.mp hfeed
      cases hr
      rw [htext, hinit, List.dropLast_concat, ← List.append_assoc, List.append_assoc _ _ after]
      exact Text.isRange_append _ _ _
    · cases hr
  · rw [hspan, htext, ← List.append_assoc, List.append_assoc _ cut]
    exact Text.isRange_append _ _ _

/-- Whatever span with its ends between characters a construct takes up: no cut on the way to the
place of its node divides a character or lies outside of the text. The node starts behind the prefix
that it skips and stops before the terminator that it leaves out, both inside the text and not the
other way round, and the place has the positions of these offsets, which are in reading order. -/
theorem exists_divides_place (x : LineIndex) (k : NodeKind) {s : Span} (h : s.EndsBetween x.text) :
    (∀ r ∈ k.spans x.text s, Text.IsRange x.text r.start r.stop) ∧
    (∃ before skipped kept cut after, k.Divides x.text s before skipped kept cut after ∧
      let start := Text.byteLength (before ++ skipped)
      let stop := Text.byteLength (before ++ skipped ++ kept)
      k.place x s = ⟨x.position start, x.position stop⟩ ∧
        min s.start x.byteLength ≤ start ∧ start ≤ stop ∧ stop ≤ x.byteLength) ∧
    (k.place x s).start ≤ (k.place x s).stop := by
  obtain ⟨before, skipped, kept, cut, after, hdivides, -, hspan⟩ := k.exists_divides h
  have htext := congrArg Text.byteLength hdivides.text_eq
  have hstart := hdivides.start_eq
  simp only [Text.byteLength_append] at htext
  have hle : (k.span x.text s).start ≤ (k.span x.text s).stop := by
    rw [hspan]
    simp only [Text.byteLength_append]
    omega
  refine ⟨fun r hr ↦ isRange_of_mem_spans h hr,
    ⟨before, skipped, kept, cut, after, hdivides, ?_, ?_, ?_, ?_⟩, LineIndex.position_mono hle⟩
  · rw [place, hspan]
  all_goals
    simp only [LineIndex.byteLength, Text.byteLength_append] at *
    omega

/-- A span that goes on past the end of a text, with a wide blank in the prefix on its line: the
node takes up the tag alone. -/
theorem exists_divides_place_wide :
    let x := LineIndex.ofText "x\n>\u3000<é>\r\n".toList
    let s : Span := ⟨2, 99⟩
    s.EndsBetween x.text ∧ html.spans x.text s = [⟨2, 12⟩, ⟨6, 12⟩, ⟨6, 11⟩, ⟨6, 10⟩] ∧
      html.place x s = ⟨⟨2, 3, some 6⟩, ⟨2, 6, some 10⟩⟩ ∧
        (∀ r ∈ html.spans x.text s, Text.IsRange x.text r.start r.stop) ∧
          (html.place x s).start ≤ (html.place x s).stop := by
  intro x s
  have hs : s.EndsBetween x.text := ⟨by decide +kernel, by decide +kernel⟩
  obtain ⟨hspans, -, hle⟩ := exists_divides_place x html hs
  exact ⟨hs, by decide +kernel, by decide +kernel, hspans, hle⟩

end NodeKind

end FencedCode
