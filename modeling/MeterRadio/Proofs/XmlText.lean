/-
Module: MeterRadio.Proofs.XmlText
Purpose: Written elements are read as the nodes they stand for. Escapes in a text are undone, tags
  and texts come back as tokens whatever tag follows them, and tokens are built into the open
  element whatever elements it is in.
Main exports: Xml.unescape?_escape, Xml.Solid, Xml.isName, Xml.Lexes, Xml.Builds, Xml.Reads,
  Xml.reads_textElement, Xml.reads_element, Xml.parse?_element
-/
import Mathlib.Data.List.TakeWhile
import MeterRadio.Proofs.Numerals
import MeterRadio.Xml.Reader

namespace MeterRadio.Xml

/-! ### Escapes -/

theorem ne_of_class {p : Char → Bool} {c d : Char} (hc : p c = true) (hd : p d = false) :
    c ≠ d := by
  rintro rfl
  exact Bool.false_ne_true (hd.symm.trans hc)

/-- A character stands for itself, or a reference to it is written. -/
theorem escape_cases (c : Char) :
    (escape c = [c] ∧ c ≠ '<' ∧ c ≠ '&') ∨
      ∃ name, escape c = '&' :: (name ++ [';']) ∧ entity? name = some c ∧
        name.all Char.isAlpha = true := by
  unfold escape
  split
  case isTrue h => exact .inr ⟨"lt".toList, rfl, by rw [h]; rfl, by decide⟩
  split
  case isTrue h => exact .inr ⟨"gt".toList, rfl, by rw [h]; rfl, by decide⟩
  split
  case isTrue h => exact .inr ⟨"amp".toList, rfl, by rw [h]; rfl, by decide⟩
  split
  case isTrue h => exact .inr ⟨"apos".toList, rfl, by rw [h]; rfl, by decide⟩
  split
  case isTrue h => exact .inr ⟨"quot".toList, rfl, by rw [h]; rfl, by decide⟩
  case isFalse hless _ hand _ _ => exact .inl ⟨rfl, hless, hand⟩

theorem escape_ne_nil (c : Char) : escape c ≠ [] := by
  rcases escape_cases c with ⟨hself, -⟩ | ⟨name, hname, -⟩
  · rw [hself]
    exact List.cons_ne_nil _ _
  · rw [hname]
    exact List.cons_ne_nil _ _

theorem unescapeFrom_escape (fuel : Nat) (c : Char) (rest : List Char) :
    unescapeFrom (fuel + 1) (escape c ++ rest) = (unescapeFrom fuel rest).map (c :: ·) := by
  rcases escape_cases c with ⟨hself, -, hand⟩ | ⟨name, hname, hentity, halpha⟩
  · rw [hself, List.singleton_append, unescapeFrom, if_neg hand]
  · have htake : (name ++ ';' :: rest).takeWhile (fun d => d != '&' && d != ';') = name := by
      rw [List.takeWhile_append_of_pos, List.takeWhile_cons_of_neg (by decide), List.append_nil]
      intro d hd
      have hletter := List.all_eq_true.1 halpha d hd
      have hand := ne_of_class hletter (by decide : '&'.isAlpha = false)
      have hsemicolon := ne_of_class hletter (by decide : ';'.isAlpha = false)
      rw [bne_iff_ne.2 hand, bne_iff_ne.2 hsemicolon, Bool.and_self]
    rw [hname, List.cons_append, List.append_assoc, List.singleton_append, unescapeFrom,
      if_pos rfl]
    simp only [htake, List.drop_left, hentity]
    rfl

/-- Every reference in a written text is resolved to the character it stands for. -/
theorem unescape?_escape (text : List Char) : unescape? (text.flatMap escape) = some text := by
  -- A reference takes one unit of fuel, however long it is, so there is always enough.
  have hfuel : ∀ fuel, (text.flatMap escape).length < fuel →
      unescapeFrom fuel (text.flatMap escape) = some text := by
    induction text with
    | nil =>
        intro fuel h
        obtain ⟨fuel, rfl⟩ := Nat.exists_eq_add_one_of_ne_zero (Nat.ne_of_gt h)
        rfl
    | cons c rest ih =>
        intro fuel h
        obtain ⟨fuel, rfl⟩ := Nat.exists_eq_add_one_of_ne_zero (Nat.ne_zero_of_lt h)
        have hpos := List.length_pos_iff.2 (escape_ne_nil c)
        rw [List.flatMap_cons, List.length_append] at h
        rw [List.flatMap_cons, unescapeFrom_escape, ih fuel (by omega)]
        rfl
  exact hfuel _ (Nat.lt_succ_self _)

/-! ### Texts without white space -/

/-- A text that has something in it, and no white space. -/
structure Solid (text : List Char) : Prop where
  nonempty : text ≠ []
  visible : ∀ c ∈ text, isSpace c = false

namespace Solid

variable {text : List Char}

theorem not_mem_newline (h : Solid text) : '\n' ∉ text :=
  fun hmem => Bool.false_ne_true (h.visible '\n' hmem).symm

theorem reverse (h : Solid text) : Solid text.reverse :=
  ⟨fun hnil => h.nonempty (List.reverse_eq_nil_iff.1 hnil),
    fun c hc => h.visible c (List.mem_reverse.1 hc)⟩

theorem dropWhile (h : Solid text) : text.dropWhile isSpace = text := by
  cases text with
  | nil => rfl
  | cons c rest =>
      have hc := h.visible c List.mem_cons_self
      exact List.dropWhile_cons_of_neg (by rw [hc]; exact Bool.false_ne_true)

end Solid

theorem isSpace_of_class {p : Char → Bool} (hp : [' ', '\t', '\n', '\r'].any p = false) {c : Char}
    (hc : p c = true) : isSpace c = false := by
  have hne : ∀ d ∈ [' ', '\t', '\n', '\r'], (c == d) = false := fun d hd =>
    beq_eq_false_iff_ne.2 (ne_of_class hc (Bool.eq_false_iff.2 (List.any_eq_false.1 hp d hd)))
  simp only [List.forall_mem_cons] at hne
  obtain ⟨hblank, htab, hfeed, hreturn, -⟩ := hne
  rw [isSpace, hblank, htab, hfeed, hreturn]
  rfl

theorem isSpace_of_isAlpha {c : Char} (h : c.isAlpha = true) : isSpace c = false :=
  isSpace_of_class rfl h

theorem isSpace_of_isDigit {c : Char} (h : c.isDigit = true) : isSpace c = false :=
  isSpace_of_class rfl h

/-- An escape brings in neither a bracket nor white space. -/
theorem mem_escape {c d : Char} (h : d ∈ escape c) :
    d ≠ '<' ∧ (isSpace c = false → isSpace d = false) := by
  rcases escape_cases c with ⟨hself, hless, -⟩ | ⟨name, hname, -, halpha⟩
  · rw [hself, List.mem_singleton] at h
    subst h
    exact ⟨hless, id⟩
  · rw [hname, List.mem_cons, List.mem_append, List.mem_singleton] at h
    rcases h with rfl | hletter | rfl
    · exact ⟨by decide, fun _ => rfl⟩
    · have hd := List.all_eq_true.1 halpha d hletter
      exact ⟨ne_of_class hd (by decide), fun _ => isSpace_of_isAlpha hd⟩
    · exact ⟨by decide, fun _ => rfl⟩

theorem not_mem_escaped (text : List Char) : '<' ∉ text.flatMap escape := by
  intro h
  obtain ⟨c, -, hc⟩ := List.mem_flatMap.1 h
  exact (mem_escape hc).1 rfl

theorem Solid.escaped {text : List Char} (h : Solid text) : Solid (text.flatMap escape) where
  nonempty := by
    obtain ⟨c, rest, rfl⟩ := List.exists_cons_of_ne_nil h.nonempty
    rw [List.flatMap_cons]
    exact List.append_ne_nil_of_left_ne_nil (escape_ne_nil c) _
  visible := by
    intro d hd
    obtain ⟨c, hc, hdc⟩ := List.mem_flatMap.1 hd
    exact (mem_escape hdc).2 (h.visible c hc)

/-- A written text without white space makes one node, with the text in it. -/
theorem textNode_escaped {text : List Char} (h : Solid text) :
    textNode [⟨false, text.flatMap escape⟩] = [.text (some (String.ofList text))] := by
  have hescaped := h.escaped
  have hfront : trimFront [⟨false, text.flatMap escape⟩] = [⟨false, text.flatMap escape⟩] := by
    obtain ⟨c, rest, hchars⟩ := List.exists_cons_of_ne_nil hescaped.nonempty
    have hkept := hescaped.dropWhile
    rw [hchars] at hkept ⊢
    simp only [trimFront, Bool.false_eq_true, if_false, hkept]
  have hback : trimBack [⟨false, text.flatMap escape⟩] = [⟨false, text.flatMap escape⟩] := by
    simp only [trimBack, List.reverse_singleton, Bool.false_eq_true, if_false,
      hescaped.reverse.dropWhile, List.reverse_reverse]
  have hsome : (text.flatMap escape).isEmpty = false :=
    List.isEmpty_eq_false_iff.2 hescaped.nonempty
  simp [textNode, hfront, hback, hsome, unescape?_escape]

/-! ### Tokens

Whether a text is over is only known from the tag behind it. So characters are read as tokens if a
tag follows them or nothing does, and in this form they can be appended. -/

/-- The names of elements here: letters and nothing else. -/
def isName (tag : String) : Bool := !tag.toList.isEmpty && tag.toList.all Char.isAlpha

/-- Characters that a tag starts, or none. -/
def AtTag (chars : List Char) : Prop := ∀ c ∈ chars.head?, c = '<'

theorem atTag_nil : AtTag [] := nofun

theorem atTag_cons (rest : List Char) : AtTag ('<' :: rest) := by
  rintro c ⟨⟩
  rfl

theorem AtTag.append {a b : List Char} (ha : AtTag a) (hb : AtTag b) : AtTag (a ++ b) := by
  cases a with
  | nil => exact hb
  | cons c rest => exact ha

section Name

variable {tag : String}

theorem isAlpha_of_isName (h : isName tag = true) : ∀ c ∈ tag.toList, c.isAlpha = true := by
  rw [isName, Bool.and_eq_true, List.all_eq_true] at h
  exact h.2

theorem toList_ne_nil_of_isName (h : isName tag = true) : tag.toList ≠ [] := by
  rw [isName, Bool.and_eq_true, Bool.not_eq_true', List.isEmpty_eq_false_iff] at h
  exact h.1

theorem solid_of_isName (h : isName tag = true) : Solid tag.toList :=
  ⟨toList_ne_nil_of_isName h, fun c hc => isSpace_of_isAlpha (isAlpha_of_isName h c hc)⟩

theorem tag?_append {name : List Char} (h : ∀ c ∈ name, c.isAlpha = true) (rest : List Char) :
    tag? none (name ++ '>' :: rest) = some (name, rest) := by
  induction name with
  | nil => rfl
  | cons c name ih =>
      have hc := h c List.mem_cons_self
      have hclose := ne_of_class hc (by decide : '>'.isAlpha = false)
      have hquote := ne_of_class hc (by decide : '"'.isAlpha = false)
      have happostrophe := ne_of_class hc (by decide : '\''.isAlpha = false)
      rw [List.cons_append, tag?]
      simp only [hclose, hquote, happostrophe, and_false, or_self, if_false,
        ih fun d hd => h d (List.mem_cons_of_mem c hd)]
      rfl

/-- The start tag of a name is read as a start of that name. -/
theorem markup_start (h : isName tag = true) (rest : List Char) :
    markup (tag.toList ++ '>' :: rest) = (.start tag.toList false, rest) := by
  have halpha := isAlpha_of_isName h
  have hclose := tag?_append halpha rest
  have hlast : tag.toList.getLast? ≠ some '/' := fun hslash =>
    ne_of_class (halpha '/' (List.mem_of_getLast? hslash)) (by decide) rfl
  obtain ⟨c, name, hname⟩ := List.exists_cons_of_ne_nil (toList_ne_nil_of_isName h)
  have hc : c.isAlpha = true := halpha c (by rw [hname]; exact List.mem_cons_self)
  rw [hname, List.cons_append] at hclose ⊢
  rw [hname] at hlast
  unfold markup
  split
  · next heq =>
      cases heq
      cases hc
  · next heq =>
      cases heq
      cases hc
  · next heq =>
      cases heq
      cases hc
  · rw [hclose]
    exact if_neg hlast

/-- The end tag of a name is read as an end of that name. -/
theorem markup_stop (h : isName tag = true) (rest : List Char) :
    markup ('/' :: (tag.toList ++ '>' :: rest)) = (.stop tag.toList, rest) := by
  have halpha := isAlpha_of_isName h
  have htake : (tag.toList ++ '>' :: rest).takeWhile (· != '>') = tag.toList := by
    rw [List.takeWhile_append_of_pos, List.takeWhile_cons_of_neg (by decide), List.append_nil]
    intro c hc
    exact bne_iff_ne.2 (ne_of_class (halpha c hc) (by decide))
  have hdrop : (tag.toList ++ '>' :: rest).drop (tag.toList.length + 1) = rest := by
    rw [← List.drop_drop, List.drop_left]
    rfl
  have hkept : (tag.toList.reverse.dropWhile isAsciiSpace).reverse = tag.toList := by
    rw [List.dropWhile_eq_self_iff.2, List.reverse_reverse]
    intro hpos
    have hlast := halpha _ (List.mem_reverse.1 (List.getElem_mem hpos))
    rw [isAsciiSpace, isSpace_of_isAlpha hlast, Bool.false_or, beq_iff_eq]
    exact ne_of_class hlast (by decide)
  have hsome : tag.toList.isEmpty = false :=
    List.isEmpty_eq_false_iff.2 (toList_ne_nil_of_isName h)
  simp only [markup, toBracket, htake, hdrop, stopName, hkept, hsome, Bool.false_eq_true, if_false]

theorem frame_ofTag (h : isName tag = true) : Frame.ofTag tag.toList = ⟨tag, true, []⟩ := by
  have hname : tag.toList.takeWhile (fun c => !isSpace c) = tag.toList := by
    rw [List.takeWhile_eq_self_iff]
    intro c hc
    rw [(solid_of_isName h).visible c hc]
    rfl
  simp only [Frame.ofTag, hname, List.drop_length, String.ofList_toList]
  rfl

end Name

theorem tokensFrom_nil (fuel : Nat) : tokensFrom fuel [] = [] := by
  cases fuel <;> rfl

/-- Characters with a tag behind them, or nothing, are read as tokens. -/
structure Lexes (chars : List Char) (ts : List Token) : Prop where
  few : ts.length ≤ chars.length
  tokens : ∀ fuel rest, AtTag rest →
    tokensFrom (fuel + ts.length) (chars ++ rest) = ts ++ tokensFrom fuel rest

theorem lexes_nil : Lexes [] [] := ⟨Nat.le_refl 0, fun _ _ _ => rfl⟩

/-- Characters that end with a tag do not change the reading of those behind them. -/
theorem Lexes.append {a b : List Char} {ta tb : List Token} (ha : Lexes a ta) (hb : Lexes b tb)
    (htag : AtTag b) : Lexes (a ++ b) (ta ++ tb) where
  few := by
    rw [List.length_append, List.length_append]
    exact Nat.add_le_add ha.few hb.few
  tokens := by
    intro fuel rest hrest
    have hfuel : fuel + (ta ++ tb).length = fuel + tb.length + ta.length := by
      rw [List.length_append]
      omega
    rw [hfuel, List.append_assoc, ha.tokens _ _ (htag.append hrest), hb.tokens _ _ hrest,
      List.append_assoc]

/-- A text without brackets is one token. -/
theorem lexes_text {chars : List Char} (hne : chars ≠ []) (h : '<' ∉ chars) :
    Lexes chars [.text chars] where
  few := List.length_pos_iff.2 hne
  tokens := by
    intro fuel rest hrest
    have hinside : ∀ c ∈ chars, (c != '<') = true := by
      rintro c hc
      exact bne_iff_ne.2 fun heq => h (heq ▸ hc)
    have hend : rest.takeWhile (· != '<') = [] ∧ rest.dropWhile (· != '<') = rest := by
      cases rest with
      | nil => exact ⟨rfl, rfl⟩
      | cons c rest =>
          have hc : c = '<' := hrest c rfl
          subst hc
          exact ⟨rfl, rfl⟩
    have htake : (chars ++ rest).takeWhile (· != '<') = chars := by
      rw [List.takeWhile_append_of_pos hinside, hend.1, List.append_nil]
    have hdrop : (chars ++ rest).dropWhile (· != '<') = rest := by
      rw [List.dropWhile_append_of_pos hinside, hend.2]
    obtain ⟨c, more, rfl⟩ := List.exists_cons_of_ne_nil hne
    have hc : c ≠ '<' := fun heq => h (heq ▸ List.mem_cons_self)
    rw [List.cons_append] at htake hdrop ⊢
    rw [List.length_singleton, tokensFrom, if_neg hc, htake, hdrop]
    rfl

theorem element_ne_nil (tag : String) (content : List Char) : element tag content ≠ [] := by
  unfold element
  split
  · exact List.cons_ne_nil _ _
  · exact List.cons_ne_nil _ _

/-- A written element with something in it. -/
theorem element_eq {tag : String} {content : List Char} (h : content ≠ []) :
    element tag content =
      '<' :: (tag.toList ++ '>' :: (content ++ '<' :: '/' :: (tag.toList ++ ['>']))) := by
  have hsome : content.isEmpty = false := List.isEmpty_eq_false_iff.2 h
  simp [element, hsome]

/-- An element is read as its start tag, what is in it, and its end tag. -/
theorem Lexes.element {tag : String} {content : List Char} {ts : List Token}
    (h : Lexes content ts) (htag : isName tag = true) (hne : content ≠ []) :
    Lexes (element tag content) (.start tag.toList false :: (ts ++ [.stop tag.toList])) where
  few := by
    have hfew := h.few
    simp only [element_eq hne, List.length_cons, List.length_append, List.length_nil]
    omega
  tokens := by
    intro fuel rest _
    have hfuel : fuel + (Token.start tag.toList false :: (ts ++ [.stop tag.toList])).length =
        fuel + 1 + ts.length + 1 := by
      simp only [List.length_cons, List.length_append, List.length_nil]
      omega
    rw [hfuel, element_eq hne]
    simp only [List.cons_append, List.append_assoc, List.nil_append]
    rw [tokensFrom, if_pos rfl, markup_start htag]
    dsimp only
    rw [h.tokens (fuel + 1) _ (atTag_cons _), tokensFrom, if_pos rfl, markup_stop htag]

/-! ### Nodes

Tokens are built into the innermost open element, whatever it is open in. Where elements fill an
element, its end tag makes one node of it. -/

/-- Tokens in an open element are built into nodes of it. -/
def Builds (ts : List Token) (nodes : List Node) : Prop :=
  ∀ frame outer rest,
    build (frame :: outer) [] (ts ++ rest) = build (frame.add nodes :: outer) [] rest

/-- Tokens between the tags of an element are built into its content. -/
def Fills (ts : List Token) (nodes : List Node) : Prop :=
  ∀ frame outer name rest,
    build (frame :: outer) [] (ts ++ .stop name :: rest) =
      build (frame.add nodes :: outer) [] (.stop name :: rest)

@[simp] theorem add_nil (frame : Frame) : frame.add [] = frame := rfl

theorem add_add (frame : Frame) (a b : List Node) : (frame.add a).add b = frame.add (a ++ b) := by
  simp [Frame.add]

theorem builds_nil : Builds [] [] := fun _ _ _ => rfl

theorem Builds.append {ta tb : List Token} {a b : List Node} (ha : Builds ta a)
    (hb : Builds tb b) : Builds (ta ++ tb) (a ++ b) := by
  intro frame outer rest
  rw [List.append_assoc, ha, hb, add_add]

theorem Builds.fills {ts : List Token} {nodes : List Node} (h : Builds ts nodes) :
    Fills ts nodes :=
  fun frame outer _ _ => h frame outer _

/-- A text waits for the tag behind it. -/
theorem fills_text (raw : List Char) : Fills [.text raw] (textNode [⟨false, raw⟩]) := by
  intro frame outer name rest
  rfl

/-- An end tag closes the element of its name. -/
theorem build_stop (tag : String) (nodes : List Node) (outer : List Frame) (rest : List Token) :
    build ((⟨tag, true, []⟩ : Frame).add nodes :: outer) [] (.stop tag.toList :: rest) =
      match outer with
      | [] => some (.element tag true nodes)
      | parent :: others => build (parent.add [.element tag true nodes] :: others) [] rest := by
  have htag : ¬ ((⟨tag, true, []⟩ : Frame).add nodes).tag ≠ String.ofList tag.toList := by
    rw [String.ofList_toList]
    exact not_not_intro rfl
  have hnode : ((⟨tag, true, []⟩ : Frame).add nodes).close = .element tag true nodes := by
    simp [Frame.add, Frame.close]
  have hnothing : textNode [].reverse = [] := rfl
  cases outer with
  | nil => simp only [build, if_neg htag, hnothing, add_nil, hnode]
  | cons parent others => simp only [build, if_neg htag, hnothing, add_nil, hnode]

/-- Between its tags the content of an element is built into it. -/
theorem Fills.builds {tag : String} {ts : List Token} {nodes : List Node} (h : Fills ts nodes)
    (htag : isName tag = true) :
    Builds (.start tag.toList false :: (ts ++ [.stop tag.toList])) [.element tag true nodes] := by
  intro frame outer rest
  have hopen : build (frame :: outer) []
        (.start tag.toList false :: (ts ++ .stop tag.toList :: rest)) =
      build (Frame.ofTag tag.toList :: frame :: outer) [] (ts ++ .stop tag.toList :: rest) := rfl
  rw [List.cons_append, List.append_assoc, List.singleton_append, hopen, frame_ofTag htag, h,
    build_stop]

/-- Written elements are read as nodes: they stand in one line, each token of them comes back, and
the tokens are built into these nodes. -/
structure Reads (chars : List Char) (nodes : List Node) : Prop where
  atTag : AtTag chars
  unbroken : '\n' ∉ chars
  reads : ∃ ts, Lexes chars ts ∧ Builds ts nodes

theorem reads_nil : Reads [] [] := ⟨atTag_nil, List.not_mem_nil, [], lexes_nil, builds_nil⟩

theorem Reads.append {a b : List Char} {na nb : List Node} (ha : Reads a na) (hb : Reads b nb) :
    Reads (a ++ b) (na ++ nb) := by
  obtain ⟨ta, hla, hba⟩ := ha.reads
  obtain ⟨tb, hlb, hbb⟩ := hb.reads
  refine ⟨ha.atTag.append hb.atTag, ?_, ta ++ tb, hla.append hlb hb.atTag, hba.append hbb⟩
  rw [List.mem_append]
  exact not_or_intro ha.unbroken hb.unbroken

theorem reads_flatMap {α : Type} {chars : α → List Char} {nodes : α → List Node} {xs : List α}
    (h : ∀ x ∈ xs, Reads (chars x) (nodes x)) : Reads (xs.flatMap chars) (xs.flatMap nodes) := by
  induction xs with
  | nil => exact reads_nil
  | cons x xs ih =>
      rw [List.flatMap_cons, List.flatMap_cons]
      exact (h x List.mem_cons_self).append (ih fun y hy => h y (List.mem_cons_of_mem x hy))

section Element

variable {tag : String} {content : List Char} {ts : List Token} {nodes : List Node}

theorem element_unbroken (htag : isName tag = true) (hne : content ≠ []) (h : '\n' ∉ content) :
    '\n' ∉ element tag content := by
  have hname := (solid_of_isName htag).not_mem_newline
  rw [element_eq hne]
  simp [hname, h]

/-- An element is read with whatever its content is read as. -/
theorem reads_content (htag : isName tag = true) (hne : content ≠ []) (hbreak : '\n' ∉ content)
    (hlexes : Lexes content ts) (hfills : Fills ts nodes) :
    Reads (element tag content) [.element tag true nodes] := by
  refine ⟨?_, element_unbroken htag hne hbreak, _, hlexes.element htag hne, hfills.builds htag⟩
  rw [element_eq hne]
  exact atTag_cons _

/-- An element in which there are elements. -/
theorem reads_element (htag : isName tag = true) (hne : content ≠ []) (h : Reads content nodes) :
    Reads (element tag content) [.element tag true nodes] := by
  obtain ⟨ts, hlexes, hbuilds⟩ := h.reads
  exact reads_content htag hne h.unbroken hlexes hbuilds.fills

/-- An element that holds a text. -/
def leaf (tag text : String) : Node := .element tag true [.text (some text)]

/-- An element with a text and no white space in it is read as a leaf. -/
theorem reads_textElement {text : String} (htag : isName tag = true) (h : Solid text.toList) :
    Reads (textElement tag text) [leaf tag text] := by
  have hescaped := h.escaped
  have hfills := fills_text (text.toList.flatMap escape)
  rw [textNode_escaped h, String.ofList_toList] at hfills
  exact reads_content htag hescaped.nonempty hescaped.not_mem_newline
    (lexes_text hescaped.nonempty (not_mem_escaped text.toList)) hfills

/-- A document that is an element is read as that element. -/
theorem parse?_element (htag : isName tag = true) (hne : content ≠ []) (h : Reads content nodes) :
    parse? (String.ofList (element tag content)) = some (.element tag true nodes) := by
  obtain ⟨ts, hlexes, hbuilds⟩ := h.reads
  have hwhole := hlexes.element htag hne
  have hmark : withoutMark (element tag content) = element tag content := by
    rw [element_eq hne]
    rfl
  have htokens : tokens (element tag content) =
      .start tag.toList false :: (ts ++ [.stop tag.toList]) := by
    obtain ⟨more, hmore⟩ := Nat.le.dest (Nat.le_succ_of_le hwhole.few)
    have hall := hwhole.tokens more [] atTag_nil
    rw [List.append_nil, tokensFrom_nil, List.append_nil, Nat.add_comm, hmore] at hall
    exact hall
  have hopen : build [] [] (.start tag.toList false :: (ts ++ [.stop tag.toList])) =
      build [Frame.ofTag tag.toList] [] (ts ++ [.stop tag.toList]) := rfl
  rw [parse?, String.toList_ofList, hmark, htokens, hopen, frame_ofTag htag, hbuilds.fills,
    build_stop]

end Element

end MeterRadio.Xml
