import OraDesktop.Json
import OraDesktop.Text
import Mathlib.Data.List.DropRight

/-!
# JSON objects in prose

`extract_json_object` takes the object of an Agent's answer from the whole answer, from the body of
a fence, or from the first balanced braces. The brace matcher is a lexer of its own: it knows
strings and escapes, and nothing else of the grammar.

## Main results

* `objectBodyEnd_append` — on the text of an object the brace matcher stops at the object's end
* `embedded_object_recovered`
-/

namespace OraDesktop

namespace Workflow

open List Text

/-! ### Extraction -/

def byteLength (text : List Char) : Nat := (text.map Char.utf8Size).sum

/-- The loop of `object_body_end`. Escapes count only inside of strings, and the offset counts
bytes. -/
def bodyEnd (offset : Nat) (depth : Int) (inString escaped : Bool) : List Char → Option Nat
  | [] => none
  | c :: rest =>
    let next := offset + c.utf8Size
    if inString then
      if escaped then bodyEnd next depth true false rest
      else if c = '\\' then bodyEnd next depth true true rest
      else bodyEnd next depth (c ≠ '"') false rest
    else if c = '"' then bodyEnd next depth true escaped rest
    else if c = '{' then bodyEnd next (depth + 1) false escaped rest
    else if c = '}' then
      if depth - 1 = 0 then some next else bodyEnd next (depth - 1) false escaped rest
    else bodyEnd next depth false escaped rest

/-- Where the object that a text begins with ends, by counting braces outside of strings; it need
not be JSON. -/
def objectBodyEnd (text : List Char) : Option Nat := bodyEnd 0 0 false false text

def sliceTo : Nat → List Char → List Char
  | _, [] => []
  | n, c :: rest => if c.utf8Size ≤ n then c :: sliceTo (n - c.utf8Size) rest else []

/-- `str::lines`, with the line so far. -/
def lines (line : List Char) : List Char → List (List Char)
  | [] => if line = [] then [] else [line]
  | c :: rest =>
    if c = '\n' then (if line.getLast? = some '\r' then line.dropLast else line) :: lines [] rest
    else lines (line ++ [c]) rest

/-- The line starts with three of the marker, after white space. -/
def startsFence (line : List Char) (marker : Char) : Bool :=
  3 ≤ ((line.dropWhile isWhitespace).takeWhile (· == marker)).length

def fenceMarker (line : List Char) : Option Char :=
  (line.dropWhile isWhitespace).head?.filter fun marker =>
    "`~".toList.contains marker && startsFence line marker

/-- `fenced_blocks`, with the marker and the body of the fence that is open. -/
def fencedBlocks : Option (Char × List Char) → List (List Char) → List (List Char)
  | none, [] => []
  | some (_, block), [] => [block]
  | none, line :: rest => fencedBlocks ((fenceMarker line).map (·, [])) rest
  | some (marker, block), line :: rest =>
    if startsFence line marker then block :: fencedBlocks none rest
    else fencedBlocks (some (marker, block ++ line ++ ['\n'])) rest

section Extract

variable [JsonText]

def parseObject (text : List Char) : Option Value :=
  (JsonText.fromText (.ofList text)).filter (·.asObject.isSome)

/-- Tries every opening brace in turn until what is matched from there parses as an object. -/
def firstEmbeddedJsonObject : List Char → Option Value
  | [] => none
  | c :: rest =>
    let found := if c = '{' then
        (objectBodyEnd (c :: rest)).bind fun n => parseObject (sliceTo n (c :: rest))
      else none
    found.or (firstEmbeddedJsonObject rest)

/-- `extract_json_object`, with the reason of its error. -/
def extractJsonObject (text : String) : Except String Value :=
  let trimmed := (trim text).toList
  let bare := trimmed.head? = some '{'
  match (if bare then parseObject trimmed else none).or
      (((fencedBlocks none (lines [] trimmed)).findSome? parseObject).or
        (firstEmbeddedJsonObject trimmed)) with
  | some value => .ok value
  | none => .error
    (if bare then "text is not valid JSON" else "no JSON object found in the final response")

end Extract

/-! ### The grammar of JSON -/

/-- White space of the grammar. -/
def Blank (cs : List Char) : Prop := cs ⊆ " \t\n\r".toList

/-- What stands between the quotes of a string. -/
inductive StringBody : List Char → Prop where
  | nil : StringBody []
  | plain {c : Char} {cs : List Char} (h : ' ' ≤ c ∧ c ≠ '"' ∧ c ≠ '\\') (rest : StringBody cs) :
      StringBody (c :: cs)
  | escape {c : Char} {cs : List Char} (h : c ∈ "\"\\/bfnrt".toList ∨
      c = 'u' ∧ 4 ≤ (cs.takeWhile ("0123456789abcdefABCDEF".toList.contains ·)).length)
      (rest : StringBody cs) : StringBody ('\\' :: c :: cs)

def Digits (cs : List Char) : Prop := cs ≠ [] ∧ cs ⊆ "0123456789".toList

/-- An optional part of a number: a mark, then digits. -/
def Marked (marks : List String) (cs : List Char) : Prop :=
  cs = [] ∨ ∃ mark ∈ marks, ∃ digits, cs = mark.toList ++ digits ∧ Digits digits

def IsNumber (cs : List Char) : Prop :=
  ∃ sign ∈ ["", "-"], ∃ whole fraction exponent,
    cs = sign.toList ++ (whole ++ (fraction ++ exponent)) ∧ Digits whole ∧
    (whole.head? = some '0' → whole = ['0']) ∧ Marked ["."] fraction ∧
    Marked ["e", "E", "e+", "E+", "e-", "E-"] exponent

inductive Nonterminal where
  | string
  | object
  | value
  | element
  | elements
  | members

open Nonterminal in
/-- The texts of the grammar. A document is an `element`. -/
inductive Derives : Nonterminal → List Char → Prop where
  | quoted {cs : List Char} (h : StringBody cs) : Derives string ('"' :: (cs ++ ['"']))
  | emptyObject {cs : List Char} (h : Blank cs) : Derives object ('{' :: (cs ++ ['}']))
  | object {cs : List Char} (h : Derives members cs) : Derives object ('{' :: (cs ++ ['}']))
  | literal {cs : List Char} (h : cs ∈ ["true".toList, "false".toList, "null".toList]) :
      Derives value cs
  | number {cs : List Char} (h : IsNumber cs) : Derives value cs
  | emptyArray {cs : List Char} (h : Blank cs) : Derives value ('[' :: (cs ++ [']']))
  | array {cs : List Char} (h : Derives elements cs) : Derives value ('[' :: (cs ++ [']']))
  | value {n : Nonterminal} {cs : List Char} (hn : n = string ∨ n = object) (h : Derives n cs) :
      Derives value cs
  | element {left cs right : List Char} (hleft : Blank left) (h : Derives value cs)
      (hright : Blank right) : Derives element (left ++ (cs ++ right))
  | single {cs : List Char} (h : Derives element cs) : Derives elements cs
  | member {left name right cs : List Char} (hleft : Blank left) (hname : Derives string name)
      (hright : Blank right) (h : Derives element cs) :
      Derives members (left ++ (name ++ (right ++ ':' :: cs)))
  | comma {n : Nonterminal} {cs cs' : List Char} (hn : n = elements ∨ n = members)
      (h : Derives n cs) (h' : Derives n cs') : Derives n (cs ++ ',' :: cs')

def IsObjectText (text : List Char) : Prop :=
  ∃ left cs right, text = left ++ (cs ++ right) ∧ Blank left ∧ Derives .object cs ∧ Blank right

/-- The parser accepts the grammar, and takes the texts of objects for objects. -/
structure FollowsGrammar [JsonText] : Prop where
  accepts : ∀ text, (JsonText.fromText text).isSome ↔ Derives .element text.toList
  object : ∀ text value, JsonText.fromText text = some value →
    (value.asObject.isSome ↔ IsObjectText text.toList)

/-! ### The brace matcher on JSON -/

variable {cs cs' object : List Char}

@[simp] theorem byteLength_nil : byteLength [] = 0 := rfl

@[simp] theorem byteLength_cons (c : Char) (cs : List Char) :
    byteLength (c :: cs) = c.utf8Size + byteLength cs := by
  simp [byteLength]

@[simp] theorem byteLength_append (cs cs' : List Char) :
    byteLength (cs ++ cs') = byteLength cs + byteLength cs' := by
  simp [byteLength]

/-- Inside an object, the matcher leaves the text at the depth at which it enters it. -/
def Passes (cs : List Char) : Prop :=
  ∀ offset depth rest, 1 ≤ depth → bodyEnd offset depth false false (cs ++ rest) =
    bodyEnd (offset + byteLength cs) depth false false rest

theorem Passes.append (h : Passes cs) (h' : Passes cs') : Passes (cs ++ cs') := by
  intro offset depth rest hdepth
  rw [append_assoc, h _ _ _ hdepth, h' _ _ _ hdepth, byteLength_append, Nat.add_assoc]

/-- The matcher does not look at the character. -/
def isPlain (c : Char) : Bool := c ≠ '"' && c ≠ '{' && c ≠ '}'

theorem passes_of_all (h : cs.all isPlain = true) : Passes cs := by
  induction cs with
  | nil => exact fun _ _ _ _ => rfl
  | cons c cs ih =>
    obtain ⟨hc, hcs⟩ := Bool.and_eq_true_iff.mp h
    have hc : (c ≠ '"' ∧ c ≠ '{') ∧ c ≠ '}' := by simpa [isPlain] using hc
    intro offset depth rest hdepth
    simp [bodyEnd, hc, ih hcs _ _ _ hdepth, Nat.add_assoc]

theorem passes_of_subset {alphabet : List Char} (halphabet : alphabet.all isPlain = true)
    (h : cs ⊆ alphabet) : Passes cs :=
  passes_of_all (all_eq_true.mpr fun c hc => all_eq_true.mp halphabet c (h hc))

theorem bodyEnd_string (h : StringBody cs) (offset : Nat) (depth : Int) (rest : List Char) :
    bodyEnd offset depth true false (cs ++ '"' :: rest) =
      bodyEnd (offset + byteLength (cs ++ ['"'])) depth false false rest := by
  induction h generalizing offset with
  | nil => simp [bodyEnd]
  | plain h _ ih => simp [bodyEnd, h, ih, Nat.add_assoc]
  | escape h _ ih => simp [bodyEnd, ih, Nat.add_assoc]

theorem Passes.braces (h : Passes cs) : Passes ('{' :: (cs ++ ['}'])) := by
  intro offset depth rest hdepth
  have hne : depth ≠ 0 := by omega
  simp [bodyEnd, h _ (depth + 1) _ (by omega), hne, Nat.add_assoc]

theorem Blank.passes (h : Blank cs) : Passes cs := passes_of_subset (by decide) h

theorem Digits.passes (h : Digits cs) : Passes cs := passes_of_subset (by decide) h.2

theorem Marked.passes {marks : List String} (h : Marked marks cs)
    (hmarks : marks.all (·.toList.all isPlain) = true) : Passes cs := by
  obtain rfl | ⟨mark, hmark, digits, rfl, hdigits⟩ := h
  · exact passes_of_all rfl
  · exact (passes_of_all (all_eq_true.mp hmarks mark hmark)).append hdigits.passes

theorem IsNumber.passes (h : IsNumber cs) : Passes cs := by
  obtain ⟨sign, hsign, whole, fraction, exponent, rfl, hwhole, -, hfraction, hexponent⟩ := h
  have hsigns : ["", "-"].all (·.toList.all isPlain) = true := by decide
  exact (passes_of_all (all_eq_true.mp hsigns sign hsign)).append (hwhole.passes.append
    ((hfraction.passes (by decide)).append (hexponent.passes (by decide))))

theorem Derives.passes {n : Nonterminal} (h : Derives n cs) : Passes cs := by
  have hmark : ∀ c, isPlain c = true → Passes [c] := fun c hc => passes_of_all (by simpa using hc)
  have hbrackets : ∀ {cs}, Passes cs → Passes ('[' :: (cs ++ [']'])) := fun h =>
    (hmark '[' rfl).append (h.append (hmark ']' rfl))
  induction h with
  | quoted h =>
    intro offset depth rest _
    have hbody := bodyEnd_string h (offset + '"'.utf8Size) depth rest
    simpa [bodyEnd, Nat.add_assoc] using hbody
  | emptyObject h => exact h.passes.braces
  | object _ ih => exact ih.braces
  | literal h =>
    have hwords : ["true".toList, "false".toList, "null".toList].all (·.all isPlain) = true := by
      decide
    exact passes_of_all (all_eq_true.mp hwords _ h)
  | number h => exact h.passes
  | emptyArray h => exact hbrackets h.passes
  | array _ ih => exact hbrackets ih
  | value _ _ ih => exact ih
  | element hleft _ hright ih => exact hleft.passes.append (ih.append hright.passes)
  | single _ ih => exact ih
  | member hleft _ hright _ ihname ih =>
    exact hleft.passes.append (ihname.append (hright.passes.append
      ((hmark ':' rfl).append ih)))
  | comma _ _ _ ih ih' => exact ih.append ((hmark ',' rfl).append ih')

theorem Derives.braces (h : Derives .object object) :
    ∃ cs, object = '{' :: (cs ++ ['}']) ∧ Passes cs := by
  cases h with
  | emptyObject h | object h => exact ⟨_, rfl, h.passes⟩
  | comma hn => simp at hn

/-- The matcher stops exactly at the end of an object. -/
theorem objectBodyEnd_append (h : Derives .object object) (after : List Char) :
    objectBodyEnd (object ++ after) = some (byteLength object) := by
  obtain ⟨cs, rfl, hcs⟩ := h.braces
  simp [objectBodyEnd, bodyEnd, hcs _ 1, Nat.add_assoc]

theorem sliceTo_append (cs rest : List Char) : sliceTo (byteLength cs) (cs ++ rest) = cs := by
  induction cs with
  | nil =>
    cases rest with
    | nil => rfl
    | cons c rest => simp [sliceTo, c.utf8Size_pos.ne']
  | cons c cs ih => simp [sliceTo, ih]

/-! ### Fences -/

/-- A fence marker follows a line break of the text. -/
def opensFence : List Char → Bool
  | [] => false
  | c :: rest => c = '\n' && (fenceMarker rest).isSome || opensFence rest

def NoFence (text : List Char) : Prop := opensFence ('\n' :: text) = false

theorem opensFence_append {left : List Char} (h : opensFence (left ++ cs) = false) :
    opensFence cs = false := by
  induction left with
  | nil => exact h
  | cons c left ih => exact ih (Bool.or_eq_false_iff.mp h).2

theorem fenceMarker_append {line : List Char} {marker : Char} (h : fenceMarker line = some marker)
    (after : List Char) : fenceMarker (line ++ after) = some marker := by
  obtain ⟨hhead, hmarker⟩ := Option.filter_eq_some_iff.mp h
  obtain ⟨hmem, hcount⟩ := Bool.and_eq_true_iff.mp hmarker
  have htrim : (line ++ after).dropWhile isWhitespace = line.dropWhile isWhitespace ++ after := by
    rw [dropWhile_append, if_neg]
    intro hempty
    simp [isEmpty_iff.mp hempty] at hhead
  refine Option.filter_eq_some_iff.mpr ⟨by rw [htrim, head?_append, hhead]; rfl,
    Bool.and_eq_true_iff.mpr ⟨hmem, decide_eq_true ?_⟩⟩
  have hcount := of_decide_eq_true hcount
  rw [htrim, takeWhile_append]
  split
  · rw [length_append]
    omega
  · exact hcount

theorem fenceMarker_eq_none {line text : List Char} (h : line <+: text)
    (htext : fenceMarker text = none) : fenceMarker line = none := by
  obtain ⟨after, rfl⟩ := h
  refine Option.eq_none_iff_forall_ne_some.mpr fun marker hmarker => ?_
  cases (fenceMarker_append hmarker after).symm.trans htext

/-- The lines of a text that goes on as `right` does open no fence. -/
theorem fencedBlocks_lines {start right : List Char}
    (hstart : fenceMarker (start ++ (cs ++ right)) = none) (h : opensFence (cs ++ right) = false) :
    fencedBlocks none (lines start cs) = [] := by
  induction cs generalizing start with
  | nil =>
    rw [lines]
    split
    · rfl
    · rw [fencedBlocks, fenceMarker_eq_none (prefix_append ..) hstart]
      rfl
  | cons c rest ih =>
    obtain ⟨hbreak, hrest⟩ := Bool.or_eq_false_iff.mp h
    rw [lines]
    split
    next hc =>
      have hline : (if start.getLast? = some '\r' then start.dropLast else start) <+: start := by
        split
        · exact dropLast_prefix start
        · exact prefix_rfl
      rw [fencedBlocks, fenceMarker_eq_none (hline.trans (prefix_append ..)) hstart]
      exact ih (by simpa [hc] using hbreak) hrest
    next => exact ih (by simpa using hstart) hrest

theorem NoFence.fencedBlocks {left right : List Char} (h : NoFence (left ++ (cs ++ right)))
    (hleft : ∀ c ∈ left, isWhitespace c = true) : fencedBlocks none (lines [] cs) = [] := by
  obtain ⟨hstart, hrest⟩ := Bool.or_eq_false_iff.mp h
  have hstart : fenceMarker (left ++ (cs ++ right)) = none := by simpa using hstart
  refine fencedBlocks_lines ?_ (opensFence_append hrest)
  simpa [fenceMarker, startsFence, dropWhile_append_of_pos hleft] using hstart

/-! ### Recovery -/

theorem dropWhile_append_cons {p : Char → Bool} {c : Char} (hc : p c = false)
    (cs rest : List Char) : (cs ++ c :: rest).dropWhile p = cs.dropWhile p ++ c :: rest := by
  induction cs with
  | nil => simp [hc]
  | cons d cs ih => cases hd : p d <;> simp [hd, ih]

theorem trim_around (h : Derives .object object) (before after : List Char) :
    (trim (.ofList (before ++ (object ++ after)))).toList =
      before.dropWhile isWhitespace ++ (object ++ dropEndWhile isWhitespace after) := by
  obtain ⟨cs, rfl, -⟩ := h.braces
  rw [trim, String.toList_ofList, String.toList_ofList, cons_append, dropWhile_append_cons (by decide),
    dropEndWhile, append_assoc, ← cons_append, ← append_assoc, singleton_append, reverse_append,
    reverse_cons, append_assoc, singleton_append, dropWhile_append_cons (by decide)]
  simp [dropEndWhile]

section

variable [JsonText]

theorem firstEmbedded_append {value : Value} (h : Derives .object object)
    (hvalue : parseObject object = some value) {before : List Char} (hbefore : '{' ∉ before)
    (after : List Char) : firstEmbeddedJsonObject (before ++ (object ++ after)) = some value := by
  induction before with
  | nil =>
    have hfound : ((objectBodyEnd (object ++ after)).bind fun n =>
        parseObject (sliceTo n (object ++ after))) = some value := by
      rw [objectBodyEnd_append h, Option.bind_some, sliceTo_append, hvalue]
    obtain ⟨cs, rfl, -⟩ := h.braces
    rw [nil_append, cons_append, firstEmbeddedJsonObject, ← cons_append, if_pos rfl, hfound]
    rfl
  | cons c before ih =>
    obtain ⟨hc, hrest⟩ := not_or.mp (mt mem_cons.mpr hbefore)
    simp [firstEmbeddedJsonObject, Ne.symm hc, ih hrest]

/-- An object with text after it is an object only where the text is white space. -/
theorem blank_of_parseObject (hjson : FollowsGrammar) (h : Derives .object object)
    {after : List Char} {value : Value} (hvalue : parseObject (object ++ after) = some value) :
    Blank after := by
  obtain ⟨hvalue, hobject⟩ := Option.filter_eq_some_iff.mp hvalue
  obtain ⟨left, cs, right, htext, hleft, hcs, hright⟩ := (hjson.object _ _ hvalue).mp hobject
  rw [String.toList_ofList] at htext
  have hnil : left = [] := by
    obtain ⟨cs', rfl, -⟩ := h.braces
    cases left with
    | nil => rfl
    | cons c left =>
      obtain rfl : '{' = c := by simpa using congrArg head? htext
      exact absurd (hleft mem_cons_self) (by decide)
  rw [hnil, nil_append] at htext
  have hend := objectBodyEnd_append h after
  rw [htext, objectBodyEnd_append hcs] at hend
  have hsame := sliceTo_append object after
  rw [htext, ← Option.some.inj hend, sliceTo_append] at hsame
  rw [← hsame, append_cancel_left_eq] at htext
  exact htext ▸ hright

/-- An answer that is an object as a whole is the object in it. -/
theorem eq_of_bare {value other : Value} (hjson : FollowsGrammar) (h : Derives .object object)
    (hvalue : parseObject object = some value) {before after : List Char} (hbefore : '{' ∉ before)
    (hbare : (before ++ (object ++ dropEndWhile isWhitespace after)).head? = some '{')
    (hother : parseObject (before ++ (object ++ dropEndWhile isWhitespace after)) = some other) :
    other = value := by
  cases before with
  | cons c before =>
    obtain rfl : c = '{' := Option.some.inj hbare
    exact absurd mem_cons_self hbefore
  | nil =>
    rw [nil_append] at hother
    have hblank := blank_of_parseObject hjson h hother
    have hnil : dropEndWhile isWhitespace after = [] := by
      rw [dropEndWhile, reverse_eq_nil_iff, ← dropWhile_idempotent, dropWhile_eq_nil_iff]
      intro c hc
      have hspaces : " \t\n\r".toList.all isWhitespace = true := by decide
      exact all_eq_true.mp hspaces c (hblank (mem_reverse.mpr hc))
    rw [hnil, append_nil, hvalue] at hother
    exact (Option.some.inj hother).symm

/-- An object is found in a text that has no brace before it and no fence, and the brace matcher
gives its length. -/
theorem embedded_object_recovered (hjson : FollowsGrammar) (h : Derives .object object) :
    (∀ after, objectBodyEnd (object ++ after) = some (byteLength object)) ∧
    ∃ value, JsonText.fromText (.ofList object) = some value ∧
      ∀ before after, '{' ∉ before → NoFence (before ++ (object ++ after)) →
        extractJsonObject (.ofList (before ++ (object ++ after))) = .ok value := by
  have helement : Derives .element object := by
    simpa using Derives.element (nil_subset _) (.value (.inr rfl) h) (nil_subset _)
  obtain ⟨value, hvalue⟩ := Option.isSome_iff_exists.mp
    ((hjson.accepts (.ofList object)).mpr (by rwa [String.toList_ofList]))
  have hobject : parseObject object = some value := Option.filter_eq_some_iff.mpr
    ⟨hvalue, (hjson.object _ _ hvalue).mpr ⟨[], object, [], by simp, nil_subset _, h, nil_subset _⟩⟩
  refine ⟨objectBodyEnd_append h, value, hvalue, fun before after hbefore hfence => ?_⟩
  have hclear : '{' ∉ before.dropWhile isWhitespace := fun hmem =>
    hbefore ((dropWhile_suffix _).subset hmem)
  obtain ⟨right, hright⟩ := exists_dropEndWhile isWhitespace after
  unfold extractJsonObject
  rw [trim_around h]
  have htext : NoFence (before.takeWhile isWhitespace ++ ((before.dropWhile isWhitespace ++
      (object ++ dropEndWhile isWhitespace after)) ++ right)) := by
    rwa [append_assoc, append_assoc, ← hright, ← append_assoc, takeWhile_append_dropWhile]
  have hfences := htext.fencedBlocks fun c hc => all_eq_true.mp all_takeWhile c hc
  have hfound : ∀ whole : Option Value, (∀ other, whole = some other → other = value) →
      whole.or (([].findSome? parseObject).or (some value)) = some value := by
    rintro (_ | other) hsame
    · rfl
    · exact congrArg some (hsame other rfl)
  simp only [hfences, firstEmbedded_append h hobject hclear]
  rw [hfound]
  intro other hother
  split at hother
  next hbare => exact eq_of_bare hjson h hobject hclear hbare hother
  next => cases hother

end

open Classical in
/-- A parser of the grammar that tells objects from other values. -/
noncomputable def parseGrammar (text : String) : Option Value :=
  if Derives .element text.toList then
    some (if IsObjectText text.toList then .obj [] else .null) else none

theorem parseGrammar_followsGrammar :
    let _ : JsonText := ⟨fun _ => "", parseGrammar⟩
    FollowsGrammar := by
  intro _
  refine ⟨fun text => Option.isSome_ite, fun text value h => ?_⟩
  cases (Option.ite_none_right_eq_some.mp h).2
  split
  · exact iff_of_true rfl ‹_›
  · exact iff_of_false nofun ‹_›

/-- Braces inside a string and an escaped quote do not mislead the matcher, and neither does the
nested object after them. -/
theorem embedded_object_recovered_escaped :
    let _ : JsonText := ⟨fun _ => "", parseGrammar⟩
    let object := "\x7b\"\x7d\\\"\x7b\": \x7b\x7d\x7d".toList
    objectBodyEnd (object ++ " \x7d".toList) = some 12 ∧
      ∃ value, extractJsonObject (.ofList ("a: ".toList ++ (object ++ " \x7d".toList))) = .ok value := by
  intro _ object
  have hname : StringBody ['}', '\\', '"', '\x7b'] :=
    .plain (by decide) (.escape (.inl (by decide)) (.plain (by decide) .nil))
  have hblank : Blank [' '] := by unfold Blank; decide
  have hvalue : Derives .element ([' '] ++ (['\x7b', '\x7d'] ++ [])) :=
    .element hblank (.value (.inr rfl) (.emptyObject (nil_subset _))) (nil_subset _)
  have hobject : Derives .object object :=
    .object (.member (nil_subset _) (.quoted hname) (nil_subset _) hvalue)
  obtain ⟨hend, value, -, hextract⟩ :=
    embedded_object_recovered parseGrammar_followsGrammar hobject
  exact ⟨(hend _).trans (by decide), value, hextract _ _ (by decide) (by unfold NoFence; decide)⟩

end Workflow

end OraDesktop
