/- digest: What can be told from HTML: its marks, its tags with their quoted values, and the text between. -/

import ScreenStudio.Surface.Html

set_option autoImplicit false
set_option relaxedAutoImplicit false

namespace ScreenStudio.Surface

/-- The characters that make the structure of HTML. -/
def marks (html : List Char) : List Char := html.filter (fun c => c = '<' || c = '>' || c = '"')

/-- Put characters in the place of the four entities. -/
def decode : List Char → List Char
  | '&' :: 'a' :: 'm' :: 'p' :: ';' :: rest => '&' :: decode rest
  | '&' :: 'l' :: 't' :: ';' :: rest => '<' :: decode rest
  | '&' :: 'g' :: 't' :: ';' :: rest => '>' :: decode rest
  | '&' :: 'q' :: 'u' :: 'o' :: 't' :: ';' :: rest => '"' :: decode rest
  | c :: rest => c :: decode rest
  | [] => []

/-- HTML without its tags; `inside` says whether a tag is open. -/
def outsideTags : (inside : Bool) → List Char → List Char
  | _, [] => []
  | false, c :: rest => if c = '<' then outsideTags true rest else c :: outsideTags false rest
  | true, c :: rest => outsideTags (c != '>') rest

/-- The tags of HTML without their angle brackets; of the open one this much is known, the last
character first. -/
def tagsFrom : (known : Option (List Char)) → List Char → List (List Char)
  | _, [] => []
  | none, c :: rest => tagsFrom (if c = '<' then some [] else none) rest
  | some known, c :: rest =>
    if c = '>' then known.reverse :: tagsFrom none rest else tagsFrom (some (c :: known)) rest

def tags (html : List Char) : List (List Char) := tagsFrom none html

/-- Every second of some pieces with the one before it. -/
def pairs : List (List Char) → List (List Char × List Char)
  | before :: quoted :: rest => (before, quoted) :: pairs rest
  | _ => []

/-- The quoted values in a tag, decoded, each with what stands before its quote. -/
def quotedValues (tag : List Char) : List (List Char × List Char) :=
  (pairs (tag.splitOn '"')).map (fun pair => (pair.1, decode pair.2))

/-- None of the characters is written as an entity. -/
def IsPlainName (name : String) : Prop :=
  ∀ c ∈ name.toList, c ≠ '<' ∧ c ≠ '>' ∧ c ≠ '"' ∧ c ≠ '&'

instance (name : String) : Decidable (IsPlainName name) :=
  List.decidableBAll (fun c => c ≠ '<' ∧ c ≠ '>' ∧ c ≠ '"' ∧ c ≠ '&') name.toList

mutual

/-- There is no finished markup, all names are plain, and void elements have no children. -/
def IsPlain : Shown → Prop
  | .text _ => True
  | .markup _ => False
  | .element element => IsPlainElement element

def IsPlainElement : Element → Prop
  | .mk tag attributes style _ children =>
    IsPlainName tag ∧ (∀ entry ∈ attributes, IsPlainName entry.1) ∧
      (∀ entry ∈ style, IsPlainName entry.1) ∧ (isVoid tag = true → children = []) ∧
      ArePlain children

/-- Each of several things shown is plain. -/
def ArePlain : List Shown → Prop
  | [] => True
  | shown :: rest => IsPlain shown ∧ ArePlain rest

end

/-- An element without its values and its text: the tag, the names of its attributes, whether it has
style declarations, and the elements in it. -/
inductive Outline
  | mk (tag : String) (names : List String) (styled : Bool) (inner : List Outline)

mutual

def outlines : Shown → List Outline
  | .text _ => []
  | .markup _ => []
  | .element element => [elementOutline element]

def elementOutline : Element → Outline
  | .mk tag attributes style _ children =>
    .mk tag (attributes.map Prod.fst) (!style.isEmpty) (childrenOutlines children)

/-- The outlines of several things shown. -/
def childrenOutlines : List Shown → List Outline
  | [] => []
  | shown :: rest => outlines shown ++ childrenOutlines rest

end

mutual

/-- The marks that an outline leads to: quotes for every attribute and for a style, and brackets for the
start tag and the end tag. -/
def Outline.marks : Outline → List Char
  | .mk tag names styled inner =>
    '<' :: (names.flatMap (fun _ => ['"', '"']) ++ (if styled then ['"', '"'] else []) ++
      '>' :: if isVoid tag then [] else Outline.listMarks inner ++ ['<', '>'])

def Outline.listMarks : List Outline → List Char
  | [] => []
  | outline :: rest => outline.marks ++ Outline.listMarks rest

end

/-- The attributes of an element, and behind them its style as the value of one more. -/
def fields (attributes style : List (String × String)) : List (String × String) :=
  attributes ++ if style.isEmpty then [] else [("style", styleValue style)]

/-- The fields of a tag, each with its name and what stands before it. -/
def labelled (lead : List Char) : List (String × String) → List (List Char × List Char)
  | [] => []
  | (name, value) :: rest => (lead ++ ' ' :: name.toList ++ ['='], value.toList) :: labelled [] rest

mutual

/-- The fields of all tags in document order. An end tag has none. -/
def tagFields : Shown → List (List (List Char × List Char))
  | .text _ => []
  | .markup _ => []
  | .element element => elementFields element

def elementFields : Element → List (List (List Char × List Char))
  | .mk tag attributes style _ children =>
    labelled tag.toList (fields attributes style) ::
      if isVoid tag then [] else childrenFields children ++ [[]]

def childrenFields : List Shown → List (List (List Char × List Char))
  | [] => []
  | shown :: rest => tagFields shown ++ childrenFields rest

end

theorem escape_append (first second : String) :
    escape (first ++ second) = escape first ++ escape second := by
  unfold escape
  rw [String.toList_append, List.flatMap_append]

private theorem decode_cons {c : Char} (other : c ≠ '&') (rest : List Char) :
    decode (c :: rest) = c :: decode rest := by
  rw [decode.eq_def]
  split <;> simp_all

theorem decode_escape_append (content : String) (rest : List Char) :
    decode (escape content ++ rest) = content.toList ++ decode rest := by
  unfold escape
  induction content.toList with
  | nil => rfl
  | cons c cs ih =>
    rw [List.flatMap_cons, List.append_assoc, List.cons_append, ← ih]
    unfold escapeChar
    split
    · rfl
    · rfl
    · rfl
    · rfl
    · rename_i other _ _ _
      exact decode_cons other _

theorem decode_escape (content : String) : decode (escape content) = content.toList := by
  have behind := decode_escape_append content []
  rwa [List.append_nil, decode, List.append_nil] at behind

private theorem no_mark_escapeChar (c : Char) :
    '<' ∉ escapeChar c ∧ '>' ∉ escapeChar c ∧ '"' ∉ escapeChar c := by
  unfold escapeChar
  split
  case h_5 noAnd noLess noGreater noQuote =>
    simp only [List.mem_singleton]
    exact ⟨Ne.symm noLess, Ne.symm noGreater, Ne.symm noQuote⟩
  all_goals decide

theorem no_mark_escape {content : String} {c : Char} (member : c ∈ escape content) :
    c ≠ '<' ∧ c ≠ '>' ∧ c ≠ '"' := by
  obtain ⟨origin, -, member⟩ := List.mem_flatMap.mp member
  obtain ⟨noLess, noGreater, noQuote⟩ := no_mark_escapeChar origin
  refine ⟨?_, ?_, ?_⟩ <;> rintro rfl <;> contradiction

section Reading

variable {text inner lead : List Char} (rest : List Char)

private theorem tagsFrom_text (no : '<' ∉ text) : tagsFrom none (text ++ rest) = tagsFrom none rest := by
  induction text with
  | nil => rfl
  | cons c cs ih =>
    rw [List.mem_cons, not_or] at no
    rw [List.cons_append, tagsFrom, if_neg (Ne.symm no.1), ih no.2]

private theorem tagsFrom_known (known : List Char) (no : '>' ∉ inner) :
    tagsFrom (some known) (inner ++ '>' :: rest) =
      (known.reverse ++ inner) :: tagsFrom none rest := by
  induction inner generalizing known with
  | nil => rw [List.nil_append, tagsFrom, if_pos rfl, List.append_nil]
  | cons c cs ih =>
    rw [List.mem_cons, not_or] at no
    rw [List.cons_append, tagsFrom, if_neg (Ne.symm no.1), ih (c :: known) no.2, List.reverse_cons,
      List.append_assoc, List.singleton_append]

private theorem tagsFrom_tag (no : '>' ∉ inner) :
    tagsFrom none ('<' :: (inner ++ '>' :: rest)) = inner :: tagsFrom none rest := by
  rw [tagsFrom, if_pos rfl, tagsFrom_known rest [] no]
  rfl

private theorem outsideTags_text (no : '<' ∉ text) :
    outsideTags false (text ++ rest) = text ++ outsideTags false rest := by
  induction text with
  | nil => rfl
  | cons c cs ih =>
    rw [List.mem_cons, not_or] at no
    rw [List.cons_append, outsideTags, if_neg (Ne.symm no.1), ih no.2, List.cons_append]

private theorem outsideTags_inside (no : '>' ∉ inner) :
    outsideTags true (inner ++ '>' :: rest) = outsideTags false rest := by
  induction inner with
  | nil => rfl
  | cons c cs ih =>
    rw [List.mem_cons, not_or] at no
    have other : (c != '>') = true := bne_iff_ne.mpr (Ne.symm no.1)
    rw [List.cons_append, outsideTags, other, ih no.2]

private theorem outsideTags_tag (no : '>' ∉ inner) :
    outsideTags false ('<' :: (inner ++ '>' :: rest)) = outsideTags false rest := by
  rw [outsideTags, if_pos rfl, outsideTags_inside rest no]

end Reading

section Tags

variable {tag : String} {attributes style : List (String × String)}

/-- What stands between the brackets of a start tag. -/
def startInner (tag : String) (attributes style : List (String × String)) : List Char :=
  tag.toList ++ (fields attributes style).flatMap (fun entry => attributeChars entry.1 entry.2)

theorem startTag_eq (tag : String) (attributes style : List (String × String)) :
    startTag tag attributes style = '<' :: (startInner tag attributes style ++ ['>']) := by
  unfold startTag startInner fields
  cases style with
  | nil => simp
  | cons entry rest => simp

theorem isPlainName_of_mem_fields (plain : ∀ entry ∈ attributes, IsPlainName entry.1) :
    ∀ entry ∈ fields attributes style, IsPlainName entry.1 := by
  intro entry member
  rcases List.mem_append.mp member with own | last
  · exact plain entry own
  · split at last
    · cases last
    · rw [List.mem_singleton.mp last]
      exact (by decide : IsPlainName "style")

private theorem no_greater_attributeChars {name value : String} (plain : IsPlainName name) :
    '>' ∉ attributeChars name value := by
  intro member
  simp only [attributeChars, List.mem_cons, List.mem_append, List.not_mem_nil, or_false] at member
  rcases member with space | named | equals | quote | escaped | quote
  · exact absurd space (by decide)
  · exact (plain '>' named).2.1 rfl
  · exact absurd equals (by decide)
  · exact absurd quote (by decide)
  · exact (no_mark_escape escaped).2.1 rfl
  · exact absurd quote (by decide)

theorem no_greater_startInner (plain : IsPlainName tag)
    (named : ∀ entry ∈ attributes, IsPlainName entry.1) : '>' ∉ startInner tag attributes style := by
  intro member
  rcases List.mem_append.mp member with own | inside
  · exact (plain '>' own).2.1 rfl
  · obtain ⟨entry, among, inside⟩ := List.mem_flatMap.mp inside
    exact no_greater_attributeChars (isPlainName_of_mem_fields named entry among) inside

private theorem no_greater_endTag (plain : IsPlainName tag) : '>' ∉ '/' :: tag.toList := by
  rw [List.mem_cons, not_or]
  exact ⟨by decide, fun greater => (plain '>' greater).2.1 rfl⟩

private theorem quotedValues_fields {lead : List Char} (clean : '"' ∉ lead)
    {fields : List (String × String)} (named : ∀ entry ∈ fields, IsPlainName entry.1) :
    quotedValues (lead ++ fields.flatMap (fun entry => attributeChars entry.1 entry.2)) =
      labelled lead fields := by
  induction fields generalizing lead with
  | nil =>
    rw [List.flatMap_nil, List.append_nil, quotedValues, List.splitOn_eq_singleton clean]
    rfl
  | cons entry rest ih =>
    obtain ⟨name, value⟩ := entry
    obtain ⟨plain, others⟩ := List.forall_mem_cons.mp named
    have label : '"' ∉ lead ++ ' ' :: name.toList ++ ['='] := by
      intro member
      simp only [List.mem_append, List.mem_cons, List.not_mem_nil, or_false] at member
      rcases member with (front | space | own) | equals
      · exact clean front
      · exact absurd space (by decide)
      · exact (plain '"' own).2.2.1 rfl
      · exact absurd equals (by decide)
    have quoted : '"' ∉ escape value := fun member => (no_mark_escape member).2.2 rfl
    have behind := ih List.not_mem_nil others
    have shape : lead ++ ((name, value) :: rest).flatMap (fun entry => attributeChars entry.1 entry.2) =
        (lead ++ ' ' :: name.toList ++ ['=']) ++ '"' :: (escape value ++ '"' ::
          rest.flatMap (fun entry => attributeChars entry.1 entry.2)) := by
      simp [attributeChars]
    rw [shape, quotedValues, List.splitOn_append_cons_self_of_not_mem label,
      List.splitOn_append_cons_self_of_not_mem quoted, pairs, List.map_cons, decode_escape]
    unfold quotedValues at behind
    rw [labelled, ← behind, List.nil_append]

theorem quotedValues_startInner (plain : IsPlainName tag)
    (named : ∀ entry ∈ attributes, IsPlainName entry.1) :
    quotedValues (startInner tag attributes style) = labelled tag.toList (fields attributes style) :=
  quotedValues_fields (fun quote => (plain '"' quote).2.2.1 rfl) (isPlainName_of_mem_fields named)

theorem quotedValues_endTag (plain : IsPlainName tag) : quotedValues ('/' :: tag.toList) = [] := by
  have clean : '"' ∉ '/' :: tag.toList := by
    rw [List.mem_cons, not_or]
    exact ⟨by decide, fun quote => (plain '"' quote).2.2.1 rfl⟩
  rw [quotedValues, List.splitOn_eq_singleton clean]
  rfl

/-- An element is written as a start tag and, unless it is void, its content and an end tag. -/
theorem elementChars_eq (tag : String) (attributes style : List (String × String))
    (listeners : List (String × Handler)) (children : List Shown) (rest : List Char) :
    elementChars ⟨tag, attributes, style, listeners, children⟩ ++ rest =
      '<' :: (startInner tag attributes style ++ '>' ::
        ((if isVoid tag then [] else childrenChars children ++ '<' :: ('/' :: tag.toList ++ ['>'])) ++
          rest)) := by
  rw [elementChars, startTag_eq, endTag]
  simp only [List.cons_append, List.append_assoc, List.nil_append]

end Tags

mutual

/-- The tags of something shown come before those behind it, and their quoted values are its fields. -/
theorem tagsFrom_htmlChars : ∀ {shown : Shown}, IsPlain shown → ∀ rest,
    (tagsFrom none (htmlChars shown ++ rest)).map quotedValues =
      tagFields shown ++ (tagsFrom none rest).map quotedValues
  | .text content, _, rest => by
    rw [htmlChars, tagsFrom_text rest (fun less => (no_mark_escape less).1 rfl)]
    rfl
  | .element element, plain, rest => tagsFrom_elementChars plain rest

theorem tagsFrom_elementChars : ∀ {element : Element}, IsPlainElement element → ∀ rest,
    (tagsFrom none (elementChars element ++ rest)).map quotedValues =
      elementFields element ++ (tagsFrom none rest).map quotedValues
  | .mk tag attributes style listeners children, ⟨own, named, _, void, inner⟩, rest => by
    rw [elementChars_eq, tagsFrom_tag _ (no_greater_startInner own named), List.map_cons,
      quotedValues_startInner own named, elementFields]
    cases content : isVoid tag with
    | true => rfl
    | false =>
      rw [if_neg Bool.false_ne_true, if_neg Bool.false_ne_true, List.append_assoc,
        tagsFrom_childrenChars inner, List.cons_append, List.append_assoc, List.singleton_append,
        tagsFrom_tag rest (no_greater_endTag own), List.map_cons, quotedValues_endTag own]
      simp only [List.cons_append, List.append_assoc, List.nil_append]

theorem tagsFrom_childrenChars : ∀ {children : List Shown}, ArePlain children → ∀ rest,
    (tagsFrom none (childrenChars children ++ rest)).map quotedValues =
      childrenFields children ++ (tagsFrom none rest).map quotedValues
  | [], _, _ => rfl
  | shown :: others, ⟨first, behind⟩, rest => by
    rw [childrenChars, List.append_assoc, tagsFrom_htmlChars first, tagsFrom_childrenChars behind,
      childrenFields, List.append_assoc]

end

mutual

theorem outsideTags_htmlChars : ∀ {shown : Shown}, IsPlain shown → ∀ rest,
    outsideTags false (htmlChars shown ++ rest) = escape (textOf shown) ++ outsideTags false rest
  | .text _, _, rest => outsideTags_text rest (fun less => (no_mark_escape less).1 rfl)
  | .element _, plain, rest => outsideTags_elementChars plain rest

theorem outsideTags_elementChars : ∀ {element : Element}, IsPlainElement element → ∀ rest,
    outsideTags false (elementChars element ++ rest) =
      escape (elementText element) ++ outsideTags false rest
  | .mk tag attributes style listeners children, ⟨own, named, _, void, inner⟩, rest => by
    rw [elementChars_eq, outsideTags_tag _ (no_greater_startInner own named), elementText]
    cases content : isVoid tag with
    | true =>
      -- A void element has no children, so no text is lost with them.
      rw [void content]
      rfl
    | false =>
      rw [if_neg Bool.false_ne_true, List.append_assoc, outsideTags_childrenChars inner,
        List.cons_append, List.append_assoc, List.singleton_append, outsideTags_tag rest (no_greater_endTag own)]

theorem outsideTags_childrenChars : ∀ {children : List Shown}, ArePlain children → ∀ rest,
    outsideTags false (childrenChars children ++ rest) =
      escape (childrenText children) ++ outsideTags false rest
  | [], _, _ => rfl
  | shown :: others, ⟨first, behind⟩, rest => by
    rw [childrenChars, List.append_assoc, outsideTags_htmlChars first, outsideTags_childrenChars behind,
      childrenText, escape_append, List.append_assoc]

end

theorem marks_append (first second : List Char) :
    marks (first ++ second) = marks first ++ marks second := List.filter_append ..

theorem marks_cons (c : Char) (rest : List Char) : marks (c :: rest) = marks [c] ++ marks rest :=
  marks_append [c] rest

private theorem marks_name {name : String} (plain : IsPlainName name) : marks name.toList = [] := by
  refine List.filter_eq_nil_iff.mpr (fun c member => ?_)
  obtain ⟨noLess, noGreater, noQuote, -⟩ := plain c member
  simp [noLess, noGreater, noQuote]

private theorem marks_escape (content : String) : marks (escape content) = [] := by
  refine List.filter_eq_nil_iff.mpr (fun c member => ?_)
  obtain ⟨noLess, noGreater, noQuote⟩ := no_mark_escape member
  simp [noLess, noGreater, noQuote]

private theorem marks_attributeChars {name : String} (plain : IsPlainName name) (value : String) :
    marks (attributeChars name value) = ['"', '"'] := by
  unfold attributeChars
  rw [marks_cons, marks_append, marks_name plain, marks_cons '=', marks_cons '"', marks_append,
    marks_escape]
  rfl

private theorem marks_fields {fields : List (String × String)}
    (named : ∀ entry ∈ fields, IsPlainName entry.1) :
    marks (fields.flatMap (fun entry => attributeChars entry.1 entry.2)) =
      fields.flatMap (fun _ => ['"', '"']) := by
  induction fields with
  | nil => rfl
  | cons entry rest ih =>
    obtain ⟨plain, others⟩ := List.forall_mem_cons.mp named
    rw [List.flatMap_cons, List.flatMap_cons, marks_append, marks_attributeChars plain, ih others]

private theorem listMarks_append (first second : List Outline) :
    Outline.listMarks (first ++ second) = Outline.listMarks first ++ Outline.listMarks second := by
  induction first with
  | nil => rfl
  | cons outline rest ih =>
    rw [List.cons_append, Outline.listMarks, ih, Outline.listMarks, List.append_assoc]

private theorem marks_startInner {tag : String} {attributes : List (String × String)}
    (plain : IsPlainName tag) (named : ∀ entry ∈ attributes, IsPlainName entry.1)
    (style : List (String × String)) :
    marks (startInner tag attributes style) =
      (attributes.map Prod.fst).flatMap (fun _ => ['"', '"']) ++
        if !style.isEmpty then ['"', '"'] else [] := by
  rw [startInner, marks_append, marks_name plain, marks_fields (isPlainName_of_mem_fields named), fields,
    List.flatMap_append, List.flatMap_map]
  cases style <;> rfl

mutual

theorem marks_htmlChars : ∀ {shown : Shown}, IsPlain shown →
    marks (htmlChars shown) = Outline.listMarks (outlines shown)
  | .text content, _ => marks_escape content
  | .element _, plain => (marks_elementChars plain).trans (List.append_nil _).symm

theorem marks_elementChars : ∀ {element : Element}, IsPlainElement element →
    marks (elementChars element) = (elementOutline element).marks
  | .mk tag attributes style listeners children, ⟨own, named, _, _, inner⟩ => by
    rw [← List.append_nil (elementChars _), elementChars_eq, marks_cons, marks_append,
      marks_startInner own named, marks_cons '>', List.append_nil, elementOutline, Outline.marks]
    cases isVoid tag with
    | true => rfl
    | false =>
      have closing : marks ('<' :: ('/' :: tag.toList ++ ['>'])) = ['<', '>'] := by
        rw [marks_cons, marks_append, marks_cons '/', marks_name own]
        rfl
      rw [if_neg Bool.false_ne_true, if_neg Bool.false_ne_true, marks_append, marks_childrenChars inner,
        closing]
      rfl

theorem marks_childrenChars : ∀ {children : List Shown}, ArePlain children →
    marks (childrenChars children) = Outline.listMarks (childrenOutlines children)
  | [], _ => rfl
  | shown :: others, ⟨first, behind⟩ => by
    rw [childrenChars, marks_append, marks_htmlChars first, marks_childrenChars behind,
      childrenOutlines, listMarks_append]

end

end ScreenStudio.Surface
