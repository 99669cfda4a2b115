import OraDesktop.Workflow.BranchMeaning

/-!
# Templates and the references they make

Three functions scan a text for placeholders: the renderer, the reader of a text that is exactly
one placeholder, and the check that no executable text refers to a node the projection dropped.
`Scans` says what the placeholders of a text are; each scanner is described by it, so what the
check sees is what the other two resolve.

## Main results

* `renderTemplateLoop_eq_ok` — when rendering succeeds, and with which text
* `scans_exclusive` — an exclusive placeholder is the first placeholder of its text
* `references_cover_rendering` — rendering and comparing never resolve a dropped node
-/

namespace OraDesktop.Workflow

open List Text WorkflowVariablePool

variable {text tail : List Char} {pieces : List (List Char × List Char)}

/-! ### The placeholders of a text -/

/-- The terminated placeholders of a text from left to right, each with the literal text before it,
and what follows the last one. Nothing but the text decides which these are. -/
inductive Scans : List Char → List (List Char × List Char) → List Char → Prop where
  | tail {text : List Char} (h : ∀ before rest,
      Text.splitOnceChars templateOpen text = some (before, rest) →
        Text.splitOnceChars templateClose rest = none) : Scans text [] text
  | placeholder {text before rest selector after tail : List Char}
      {pieces : List (List Char × List Char)}
      (hopen : Text.splitOnceChars templateOpen text = some (before, rest))
      (hclose : Text.splitOnceChars templateClose rest = some (selector, after))
      (scans : Scans after pieces tail) : Scans text ((before, selector) :: pieces) tail

theorem templateOpen_ne_nil : templateOpen ≠ [] := cons_ne_nil _ _

theorem templateClose_ne_nil : templateClose ≠ [] := cons_ne_nil _ _

section

variable {before rest selector after : List Char}
  (hopen : Text.splitOnceChars templateOpen text = some (before, rest))
  (hclose : Text.splitOnceChars templateClose rest = some (selector, after))
include hopen hclose

/-- A placeholder is consumed together with its delimiters. -/
theorem length_of_placeholder : after.length < text.length := by
  rw [(splitOnceChars_eq_some templateOpen_ne_nil hopen).1,
    (splitOnceChars_eq_some templateClose_ne_nil hclose).1]
  simp [templateOpen]
  omega

end

theorem exists_scans (text : List Char) : ∃ pieces tail, Scans text pieces tail := by
  induction hlength : text.length using Nat.strong_induction_on generalizing text with
  | _ n ih =>
    cases hopen : splitOnceChars templateOpen text with
    | none => exact ⟨[], text, .tail fun _ _ h => by rw [hopen] at h; cases h⟩
    | some split =>
      cases hclose : splitOnceChars templateClose split.2 with
      | none => exact ⟨[], text, .tail fun _ _ h => by rw [hopen] at h; cases h; exact hclose⟩
      | some found =>
        obtain ⟨pieces, tail, hscans⟩ :=
          ih _ (hlength ▸ length_of_placeholder hopen hclose) found.2 rfl
        exact ⟨_, _, .placeholder hopen hclose hscans⟩

/-! ### The renderer -/

section

variable (pool : WorkflowVariablePool)

/-- The selector of a placeholder is well formed, its root variable is declared and assigned, and
its path leads to `value` inside the variable's value. -/
def Shows (selectorText : List Char) (value : Value) : Prop :=
  ∃ selector, VariableSelector.tryFromParts (Text.split '.' (String.ofList selectorText)) =
      some selector ∧ selector.qualified ∈ pool.catalog ∧
    ∃ root, pool.values[selector.qualified]? = some root ∧
      selector.nested.foldlM Value.get root = some value

theorem walkPath_eq_ok {qualified path : String} {value inner : Value} {nested : List String} :
    WorkflowVariablePool.walkPath qualified path value nested = .ok inner ↔
      nested.foldlM Value.get value = some inner := by
  induction nested generalizing value with
  | nil => simp [walkPath]
  | cons segment rest ih =>
    rw [foldlM_cons]
    cases value with
    | obj fields =>
      cases hfield : fields.lookup segment with
      | none => simp [walkPath, Value.get, Value.asObject, hfield]
      | some field => simp [walkPath, Value.get, Value.asObject, hfield, ih]
    | _ => simp [walkPath, Value.get, Value.asObject]

theorem resolve_eq_ok_some {selector : VariableSelector} {value : Value} :
    pool.resolve selector = .ok (some value) ↔ selector.qualified ∈ pool.catalog ∧
      ∃ root, pool.values[selector.qualified]? = some root ∧
        selector.nested.foldlM Value.get root = some value := by
  unfold resolve
  split
  next hdeclared =>
    cases hroot : pool.values[selector.qualified]? with
    | none => simp
    | some root => simp [hdeclared, Fallible.map_eq_ok, walkPath_eq_ok]
  next hdeclared => simp [hdeclared]

variable [JsonText]

theorem renderPlaceholder_eq_ok {selectorText : List Char} {rendered : String} :
    renderPlaceholder pool selectorText = .ok rendered ↔
      ∃ value, Shows pool selectorText value ∧ renderValue value = rendered := by
  simp only [Shows, ← resolve_eq_ok_some]
  unfold renderPlaceholder
  dsimp only
  split
  next hselector => simp [hselector]
  next selector hselector =>
    rcases hresolve : pool.resolve selector with e | _ | value <;> simp [hselector, hresolve]

/-- The literal texts with the values between them. -/
def splice (pieces : List (List Char × List Char)) (values : List Value) (tail : List Char) :
    String :=
  String.ofList
    ((pieces.zip values).flatMap (fun piece => piece.1.1 ++ (renderValue piece.2).toList) ++ tail)

theorem splice_cons (piece : List Char × List Char) (value : Value) (values : List Value) :
    splice (piece :: pieces) (value :: values) tail =
      String.ofList piece.1 ++ renderValue value ++ splice pieces values tail := by
  apply String.toList_injective
  simp [splice]

/-- Rendering succeeds exactly if every placeholder is terminated and shows a value. -/
theorem renderTemplateLoop_eq_ok {fuel : Nat} {rendered : String} (h : Scans text pieces tail)
    (hfuel : text.length ≤ fuel) :
    renderTemplateLoop pool fuel text = .ok rendered ↔ ¬templateOpen <:+: tail ∧
      ∃ values, List.Forall₂ (fun piece value => Shows pool piece.2 value) pieces values ∧
        splice pieces values tail = rendered := by
  induction h generalizing fuel rendered with
  | @tail text h =>
    have hvalues : (∃ values, List.Forall₂ (fun (piece : List Char × List Char) value =>
        Shows pool piece.2 value) [] values ∧ splice [] values text = rendered) ↔
          String.ofList text = rendered := by
      simp [splice]
    rw [hvalues, ← splitOnceChars_eq_none_iff templateOpen_ne_nil]
    cases fuel with
    | zero =>
      obtain rfl := length_eq_zero_iff.mp (Nat.le_zero.mp hfuel)
      simp [renderTemplateLoop, splitOnceChars, templateOpen]
    | succ fuel =>
      rw [renderTemplateLoop]
      cases hopen : splitOnceChars templateOpen text with
      | none => simp
      | some split => simp [h split.1 split.2 hopen]
  | @placeholder text before rest selector after tail pieces hopen hclose scans ih =>
    have hlength := length_of_placeholder hopen hclose
    obtain ⟨fuel, rfl⟩ : ∃ n, fuel = n + 1 := ⟨fuel - 1, by omega⟩
    have ih : ∀ rendered, renderTemplateLoop pool fuel after = .ok rendered ↔ _ := fun rendered =>
      ih (by omega)
    rw [renderTemplateLoop, hopen]
    simp only [hclose, Fallible.bind_eq_ok, renderPlaceholder_eq_ok, ih]
    constructor
    · rintro ⟨_, ⟨value, hvalue, rfl⟩, _, ⟨htail, values, hvalues, rfl⟩, heq⟩
      refine ⟨htail, value :: values, .cons hvalue hvalues, ?_⟩
      rw [← Except.ok.inj heq, splice_cons]
    · rintro ⟨htail, _, hvalues, rfl⟩
      obtain ⟨value, values, hvalue, hrest, rfl⟩ := forall₂_cons_left_iff.mp hvalues
      exact ⟨_, ⟨value, hvalue, rfl⟩, _, ⟨htail, values, hrest, rfl⟩,
        by rw [splice_cons]; rfl⟩

end

/-! ### The reference check -/

theorem templateNodeIds_eq {fuel : Nat} (h : Scans text pieces tail) (hfuel : text.length < fuel) :
    templateNodeIds fuel text = pieces.flatMap fun piece =>
      ((Text.splitOnceChars ['.'] piece.2).map fun parts => String.ofList parts.1).toList := by
  induction h generalizing fuel with
  | @tail text h =>
    obtain ⟨fuel, rfl⟩ : ∃ n, fuel = n + 1 := ⟨fuel - 1, by omega⟩
    rw [templateNodeIds]
    cases hopen : splitOnceChars templateOpen text with
    | none => rfl
    | some split => simp [h split.1 split.2 hopen]
  | @placeholder text before rest selector after tail pieces hopen hclose scans ih =>
    have hlength := length_of_placeholder hopen hclose
    obtain ⟨fuel, rfl⟩ : ∃ n, fuel = n + 1 := ⟨fuel - 1, by omega⟩
    rw [templateNodeIds, hopen]
    simp only [hclose, ih (show after.length < fuel by omega), flatMap_cons]

/-- The text before the first separator is the first of the separated words. -/
theorem splitOnceChars_of_splitChars {d : Char} {cs word next : List Char} {words : List (List Char)}
    (h : Text.splitChars (· == d) cs = word :: next :: words) :
    ∃ rest, Text.splitOnceChars [d] cs = some (word, rest) := by
  induction cs generalizing word with
  | nil => cases h
  | cons c cs ih =>
    rw [splitChars] at h
    split at h
    next hc =>
      obtain rfl : c = d := by simpa using hc
      obtain rfl := (List.cons.inj h).1
      exact ⟨cs, by simp [splitOnceChars]⟩
    next hc =>
      split at h
      · cases h
      rename_i first rest hsplit
      cases h
      obtain ⟨after, hafter⟩ := ih hsplit
      refine ⟨after, ?_⟩
      rw [splitOnceChars, if_neg, hafter]
      · rfl
      · intro hpre
        exact hc (by simpa using (cons_prefix_cons.mp hpre).1.symm)

/-- The node of a well-formed selector is the one the check reads. -/
theorem splitOnceChars_of_tryFromParts {selectorText : List Char} {selector : VariableSelector}
    (h : VariableSelector.tryFromParts (Text.split '.' (String.ofList selectorText)) = some selector) :
    ∃ parts, Text.splitOnceChars ['.'] selectorText = some parts ∧
      String.ofList parts.1 = selector.nodeId := by
  rw [split, String.toList_ofList] at h
  match hparts : splitChars (· == '.') selectorText with
  | [] | [_] =>
    rw [hparts] at h
    cases h
  | word :: next :: words =>
    rw [hparts] at h
    obtain ⟨rest, hrest⟩ := splitOnceChars_of_splitChars hparts
    refine ⟨_, hrest, ?_⟩
    simp only [map_cons, VariableSelector.tryFromParts] at h
    split at h
    · cases h
    · exact congrArg VariableSelector.nodeId (Option.some.inj h)

/-- The selector is that of one of the text's placeholders. -/
def Refers (text : String) (selector : VariableSelector) : Prop :=
  ∃ pieces tail, Scans text.toList pieces tail ∧ ∃ piece ∈ pieces,
    VariableSelector.tryFromParts (Text.split '.' (String.ofList piece.2)) = some selector

theorem Refers.mem_templateNodeIds {text : String} {selector : VariableSelector}
    (h : Refers text selector) :
    selector.nodeId ∈ templateNodeIds (text.length + 1) text.toList := by
  obtain ⟨pieces, tail, hscans, piece, hpiece, hselector⟩ := h
  obtain ⟨parts, hparts, hnode⟩ := splitOnceChars_of_tryFromParts hselector
  rw [templateNodeIds_eq hscans (String.length_toList ▸ Nat.lt_succ_self _), mem_flatMap]
  exact ⟨piece, hpiece, by simp [hparts, hnode]⟩

/-! ### A text that is one placeholder -/

/-- The closing characters do not overlap themselves, so they are found right after a text that
does not contain them. -/
theorem splitOnceChars_close {inner : List Char} (h : ¬templateClose <:+: inner)
    (after : List Char) :
    Text.splitOnceChars templateClose (inner ++ (templateClose ++ after)) = some (inner, after) := by
  induction inner with
  | nil => exact splitOnceChars_self_append templateClose_ne_nil after
  | cons c inner ih =>
    rw [cons_append, splitOnceChars, if_neg, ih fun hin => h (infix_cons hin)]
    · rfl
    · intro hpre
      rcases inner with _ | ⟨d, _ | ⟨e, rest⟩⟩
      · simp [templateClose] at hpre
      · simp [templateClose] at hpre
      · refine h (List.IsPrefix.isInfix ?_)
        simpa [templateClose] using hpre

theorem exists_trim (text : String) : ∃ left right,
    text.toList = left ++ ((Text.trim text).toList ++ right) ∧
      ∀ c ∈ left, Text.isWhitespace c = true := by
  obtain ⟨right, hright⟩ :=
    exists_dropEndWhile isWhitespace (text.toList.dropWhile isWhitespace)
  refine ⟨text.toList.takeWhile isWhitespace, right, ?_, fun c hc => ?_⟩
  · rw [trim, String.toList_ofList, ← hright, takeWhile_append_dropWhile]
  · exact all_eq_true.mp all_takeWhile c hc

/-- An exclusive placeholder is the first one of its text: only white space stands around it, and
it holds no delimiter of its own. -/
theorem scans_exclusive {text : String} {selector : VariableSelector}
    (h : exclusiveTemplateSelector text = some selector) : Refers text selector := by
  obtain ⟨left, right, htext, hleft⟩ := exists_trim text
  unfold exclusiveTemplateSelector at h
  dsimp only at h
  split at h
  next hdelimiters =>
    obtain ⟨⟨rest, hrest⟩, inner, hinner⟩ := hdelimiters
    rw [← hrest] at h hinner htext
    obtain rfl : inner ++ templateClose = rest := hinner
    split at h
    next => cases h
    rename_i hfree
    have hopen : splitOnceChars templateOpen text.toList =
        some (left, inner ++ (templateClose ++ right)) := by
      rw [htext, append_assoc, append_assoc]
      refine splitOnceChars_append (fun hc => ?_) _
      exact absurd (hleft _ hc) (by decide)
    have htake : ((templateOpen ++ (inner ++ templateClose)).drop 3).take
        ((templateOpen ++ (inner ++ templateClose)).length - 6) = inner := by
      simp [templateOpen, templateClose]
    rw [htake] at h hfree
    rw [not_or] at hfree
    obtain ⟨pieces, tail, hscans⟩ := exists_scans right
    exact ⟨_, _, .placeholder hopen (splitOnceChars_close hfree.2 right) hscans, _,
      mem_cons_self, h⟩
  next => cases h

/-! ### Executable texts -/

/-- The texts of a node that are evaluated against the pool. -/
def WorkflowGraphNode.executableTexts (node : WorkflowGraphNode) : List String :=
  (node.agentConfig.elim [] fun config => [config.prompt]) ++ node.conditionConfig.elim [] (·.texts)

/-- The prompts and comparison operands of all scopes, and those of the Loops' `until` conditions. -/
def WorkflowGraph.executableTexts (g : WorkflowGraph) : List String :=
  g.executionScopes.flatMap (fun scope => scope.nodes.flatMap (·.executableTexts)) ++
    g.nodes.flatMap fun n => (g.loopBody n.id).elim [] (·.1.until.texts)

theorem mem_referencedNodeIds {node : WorkflowGraphNode} {text id : String}
    {config : Option LoopConfig} (htext : text ∈ node.executableTexts ++ config.elim [] (·.until.texts))
    (hid : id ∈ templateNodeIds (text.length + 1) text.toList) : id ∈ referencedNodeIds node config :=
  mem_append_right _ (mem_flatMap.mpr ⟨text, htext, hid⟩)

/-- The check has seen every placeholder of every executable text. -/
theorem not_unused_of_refers {g : WorkflowGraph} {unused : List String}
    (h : validateReferences g unused = none) {text : String} (htext : text ∈ g.executableTexts)
    (selector : VariableSelector) (hselector : Refers text selector) :
    selector.nodeId ∉ unused := by
  have hids := hselector.mem_templateNodeIds
  unfold validateReferences at h
  rw [Option.map_eq_none_iff, List.find?_eq_none] at h
  refine fun hunused => h selector.nodeId ?_ (by simpa using hunused)
  rw [mem_append, mem_flatMap, mem_flatMap]
  rcases mem_append.mp htext with hscope | huntil
  · obtain ⟨scope, hscope, hnode⟩ := mem_flatMap.mp hscope
    obtain ⟨node, hnode, htext⟩ := mem_flatMap.mp hnode
    have hreferenced (config : Option LoopConfig) :
        selector.nodeId ∈ referencedNodeIds node config :=
      mem_referencedNodeIds (mem_append_left _ htext) hids
    rcases mem_cons.mp hscope with rfl | hbody
    · exact .inl ⟨node, hnode, hreferenced _⟩
    obtain ⟨owner, howner, hbody⟩ := mem_filterMap.mp hbody
    obtain ⟨body, hfound, rfl⟩ := Option.map_eq_some_iff.mp hbody
    refine .inr ⟨owner, howner, ?_⟩
    rw [hfound]
    exact mem_flatMap.mpr ⟨node, hnode, hreferenced none⟩
  · obtain ⟨owner, howner, htext⟩ := mem_flatMap.mp huntil
    refine .inl ⟨owner, howner, mem_referencedNodeIds (mem_append_right _ ?_) hids⟩
    rcases hfound : g.loopBody owner.id with _ | body
    · rw [hfound] at htext
      cases htext
    · rw [hfound] at htext
      exact htext

/-! ### The result -/

/-- Two pools answer alike for the selectors of every node but the given ones. -/
def AgreeOutside (nodeIds : List String) (pool pool' : WorkflowVariablePool) : Prop :=
  ∀ selector, selector.nodeId ∉ nodeIds → pool.resolve selector = pool'.resolve selector

section

variable [JsonText] {pool pool' : WorkflowVariablePool}

theorem renderTemplateLoop_congr {fuel : Nat} (h : Scans text pieces tail)
    (hsame : ∀ piece ∈ pieces, renderPlaceholder pool piece.2 = renderPlaceholder pool' piece.2) :
    renderTemplateLoop pool fuel text = renderTemplateLoop pool' fuel text := by
  induction h generalizing fuel with
  | @tail text h =>
    cases fuel with
    | zero => rfl
    | succ fuel =>
      rw [renderTemplateLoop, renderTemplateLoop]
      cases hopen : splitOnceChars templateOpen text with
      | none => rfl
      | some split => simp only [h split.1 split.2 hopen]
  | @placeholder text before rest selector after tail pieces hopen hclose scans ih =>
    obtain ⟨hfirst, hrest⟩ := forall_mem_cons.mp hsame
    cases fuel with
    | zero => rfl
    | succ fuel =>
      rw [renderTemplateLoop, renderTemplateLoop, hopen]
      simp only [hclose, hfirst, ih hrest]

section

variable {text : String} {nodeIds : List String}
  (htext : ∀ selector, Refers text selector → selector.nodeId ∉ nodeIds)
  (hpools : AgreeOutside nodeIds pool pool')
include htext hpools

/-- What a text without a placeholder for some nodes evaluates to does not depend on them. -/
theorem renderVariableTemplate_congr :
    renderVariableTemplate text pool = renderVariableTemplate text pool' := by
  obtain ⟨pieces, tail, hscans⟩ := exists_scans text.toList
  refine renderTemplateLoop_congr hscans fun piece hpiece => ?_
  unfold renderPlaceholder
  dsimp only
  split
  next => rfl
  next selector hselector =>
    rw [hpools selector (htext selector ⟨pieces, tail, hscans, piece, hpiece, hselector⟩)]

theorem resolveComparisonValue_congr (operator : ComparisonOperator) :
    resolveComparisonValue (.str text) pool operator =
      resolveComparisonValue (.str text) pool' operator := by
  rw [resolveComparisonValue, resolveComparisonValue]
  split
  next =>
    cases hexclusive : exclusiveTemplateSelector text with
    | none => rw [renderVariableTemplate_congr htext hpools]
    | some selector =>
      dsimp only
      rw [hpools selector (htext selector (scans_exclusive hexclusive))]
  next => rfl

end

/-- No placeholder of an executable text, read by any of the scanners, names a dropped node, so
what the text evaluates to does not depend on them; and rendering any text puts the values that
its placeholders show between its literal texts. -/
theorem references_cover_rendering [Toposort] {document : Value} {g : WorkflowGraph}
    (hparse : WorkflowGraph.parse document = .ok g) :
    (∃ projected, project document = .ok projected ∧ ∀ text ∈ g.executableTexts,
      (∀ selector, Refers text selector ∨ exclusiveTemplateSelector text = some selector →
        selector.nodeId ∉ projected.unusedNodeIds) ∧
      ∀ pool pool', AgreeOutside projected.unusedNodeIds pool pool' →
        renderVariableTemplate text pool = renderVariableTemplate text pool' ∧
        ∀ operator, resolveComparisonValue (.str text) pool operator =
          resolveComparisonValue (.str text) pool' operator) ∧
    ∀ text : String, ∃ pieces tail, Scans text.toList pieces tail ∧ ∀ pool rendered,
      renderVariableTemplate text pool = .ok rendered ↔ ¬templateOpen <:+: tail ∧
        ∃ values, List.Forall₂ (fun piece value => Shows pool piece.2 value) pieces values ∧
          splice pieces values tail = rendered := by
  refine ⟨?_, fun text => ?_⟩
  · obtain ⟨projected, hproject, hparse⟩ := Fallible.bind_eq_ok.mp hparse
    obtain ⟨g', -, hparse⟩ := Fallible.bind_eq_ok.mp hparse
    refine ⟨projected, hproject, fun text htext => ?_⟩
    have hreferences : validateReferences g projected.unusedNodeIds = none := by
      cases hvalid : validateReferences g' projected.unusedNodeIds with
      | some e =>
        rw [hvalid] at hparse
        cases hparse
      | none =>
        rw [hvalid] at hparse
        cases hparse
        exact hvalid
    have hrefers := not_unused_of_refers hreferences htext
    refine ⟨fun selector h => hrefers selector (h.elim id scans_exclusive), fun pool pool' hpools => ?_⟩
    exact ⟨renderVariableTemplate_congr hrefers hpools,
      resolveComparisonValue_congr hrefers hpools⟩
  · obtain ⟨pieces, tail, hscans⟩ := exists_scans text.toList
    exact ⟨pieces, tail, hscans, fun pool rendered =>
      renderTemplateLoop_eq_ok pool hscans (String.length_toList ▸ le_rfl)⟩

end

/-- A declared and assigned object without the field that the placeholder's path names. -/
theorem rendering_needs_path :
    let pool := (empty.declare "plan.result" .object "plan").seed "plan.result"
      (.obj [])
    "plan.result" ∈ pool.catalog ∧ pool.values["plan.result"]? = some (.obj []) ∧
      @renderVariableTemplate .blank "\x7b\x7b#plan.result.score#\x7d\x7d" pool =
        .error (.invalidPath "plan.result" "score") := by
  decide +kernel

/-- The prompt names the Start variable, so neither the dropped node nor its text is read for it. -/
theorem references_cover_rendering_branching :
    letI := JsonText.blank
    letI := Toposort.documentOrder
    let prompt := "On \x7b\x7b#start.topic#\x7d\x7d."
    let pool := (empty.declare "start.topic" .string "start").seed "start.topic" (.str "tea")
    ∃ g projected, WorkflowGraph.parse branchingDocument = .ok g ∧
      project branchingDocument = .ok projected ∧ projected.unusedNodeIds = ["draft"] ∧
      prompt ∈ g.executableTexts ∧ Refers prompt ⟨"start", "topic", []⟩ ∧
      (∀ selector, Refers prompt selector → selector.nodeId ≠ "draft") ∧
      renderVariableTemplate prompt
        ((pool.declare "draft.text" .string "draft").seed "draft.text" (.str "x")) = .ok "On tea." ∧
      ∃ pieces values tail, Scans prompt.toList pieces tail ∧
        List.Forall₂ (fun piece value => Shows pool piece.2 value) pieces values ∧
          splice pieces values tail = "On tea." := by
  let := JsonText.blank
  let := Toposort.documentOrder
  intro prompt pool
  have hplay : rehearse branchingDocument none []
      (fun g _ _ => decide (prompt ∈ g.executableTexts)) = true := by decide +kernel
  obtain ⟨g, -, -, -, hparse, -, htext⟩ := runs_of_rehearse hplay
  obtain ⟨⟨projected, hproject, h⟩, hrender⟩ := references_cover_rendering hparse
  have hunused : projected.unusedNodeIds = ["draft"] := by
    have hdraft : (project branchingDocument).toOption.map (·.unusedNodeIds) = some ["draft"] := by
      decide +kernel
    rw [hproject] at hdraft
    exact Option.some.inj hdraft
  obtain ⟨hnames, hsame⟩ := h prompt (of_decide_eq_true htext)
  rw [hunused] at hnames hsame
  have hpool : renderVariableTemplate prompt pool = .ok "On tea." := by decide +kernel
  have hpools : AgreeOutside ["draft"] pool
      ((pool.declare "draft.text" .string "draft").seed "draft.text" (.str "x")) := by
    intro selector hselector
    have hne : "draft.text" ≠ selector.qualified := fun heq => by
      have hchars : "draft".toList ++ '.' :: "text".toList =
          selector.nodeId.toList ++ '.' :: selector.root.toList := by
        simpa [VariableSelector.qualified] using congrArg String.toList heq
      have hid := ((append_cons_inj_of_notMem (by decide) (by decide)).mp hchars).1
      exact hselector (by simp [String.toList_injective hid])
    have hfresh : "draft.text" ∉ pool.catalog := by decide
    simp only [resolve, declare, seed, hfresh, if_false, Std.ExtTreeMap.mem_insert,
      Std.ExtTreeMap.getElem?_insert, Std.LawfulEqOrd.compare_eq_iff_eq, hne, false_or]
  obtain ⟨pieces, tail, hscans, hok⟩ := hrender prompt
  obtain ⟨-, values, hvalues, hsplice⟩ := (hok pool _).mp hpool
  refine ⟨g, projected, hparse, hproject, hunused, of_decide_eq_true htext, ?_, fun selector hselector => ?_,
    (hsame _ _ hpools).1 ▸ hpool, pieces, values, tail, hscans, hvalues, hsplice⟩
  · have htail : Text.splitOnceChars templateOpen ['.'] = none := by decide
    exact ⟨[("On ".toList, "start.topic".toList)], ['.'],
      @Scans.placeholder _ _ "start.topic#\x7d\x7d.".toList _ _ _ _ (by decide) (by decide)
        (.tail (by simp [htail])), _, mem_cons_self, by decide⟩
  · simpa using hnames selector (.inl hselector)
end OraDesktop.Workflow
