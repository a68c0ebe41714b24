import Mathlib.Algebra.Order.BigOperators.Group.Finset
import ThreadForge.Lib.Clipping
import ThreadForge.Pico.HistoryOrder

/-!
# The budgets of the prompt

While the prompt is too long, the first section of the reduction order that is above its floor is
lowered by what is too much, and everything is rendered again. The budgets above their floors shrink
with every turn, so the loop ends, whatever the rendering makes of them.

A section that has something to show is cut to its budget. The texts for no notes and for no history
are fixed, and the prompt is stripped as a whole, so that the blanks at the end of a message go.

## Main results

* `reduceLoop_spec` : the loop ends, within the total budget or with every section at its floor
* `prompt_within_budgets_iff` : when every section stays in its budget under every total budget
-/

namespace ThreadForge

open ContextAgent

/-! ## What is asked of a prompt -/

namespace ContextManager

/-- The manager with another total budget. -/
def withTotal (c : ContextManager) (total : Int) : ContextManager :=
  { c with totalBudget := total }

/-- The budget of a section, which is 0 where there is none. -/
def budgetOf (budgets : Budgets) (name : String) : Int := (budgets name).getD 0

/-- The lowest budget that the loop can leave a section. -/
def lowest (c : ContextManager) (name : String) : Int :=
  if name ∈ c.reductionOrder then min (budgetOf c.budgets name) (c.floor name)
  else budgetOf c.budgets name

/-- `build` returns, and giving the loop more turns changes nothing. -/
def Ends (c : ContextManager) (a : ContextAgent) (userMessage : String) (built : Built) : Prop :=
  ∃ fuel, ∀ more, c.build a userMessage (fuel + more) = some built

/-- The prompt is short enough, or every section in the reduction order is at its floor. -/
def Limited (c : ContextManager) (built : Built) : Prop :=
  (built.prompt.length : Int) ≤ c.totalBudget ∨
    ∀ name ∈ c.reductionOrder, budgetOf built.budgets name ≤ c.floor name

/-- Every section is rendered within its final budget. -/
structure SectionsFit (built : Built) : Prop where
  prefixText : (built.sections.prefixText.rendered.length : Int) ≤ budgetOf built.budgets "prefix"
  memory : (built.sections.memory.rendered.length : Int) ≤ budgetOf built.budgets "memory"
  relevantMemory : (built.sections.relevantMemory.rendered.length : Int) ≤
    budgetOf built.budgets "relevant_memory"
  history : (built.sections.history.rendered.length : Int) ≤ budgetOf built.budgets "history"

/-- The prompt ends with the whole section of the request. -/
def RequestWhole (a : ContextAgent) (userMessage : String) (built : Built) : Prop :=
  (a.currentRequest userMessage).toList <:+ built.prompt.toList

/-- The limits of a prompt. -/
structure Respects (c : ContextManager) (a : ContextAgent) (userMessage : String)
    (built : Built) : Prop where
  limited : c.Limited built
  fit : SectionsFit built
  request : RequestWhole a userMessage built

end ContextManager

open ContextManager

/-- The notes that are not blank. -/
def ContextAgent.shownNotes (a : ContextAgent) (userMessage : String) : List String :=
  (a.selectedNotes userMessage).filter fun text => pyStrip a.txt text ≠ ""

/-- What the section of the notes needs: its fixed text, where there are none. -/
def ContextAgent.neededForNotes (a : ContextAgent) (userMessage : String) : Int :=
  if (a.shownNotes userMessage).isEmpty then "Relevant memory:\n- none".length else 1

/-- What the section of the history needs: its fixed text, where there is none. -/
def ContextAgent.neededForHistory (a : ContextAgent) : Int :=
  if a.history.isEmpty then "Transcript:\n- empty".length else 1

/-- The message ends with a character that is no blank. -/
def EndsSolid (txt : PyText) (userMessage : String) : Prop :=
  ∃ front c, userMessage.toList = front ++ [c] ∧ txt.isSpace c = false

/-- The budgets that cover what the sections need. -/
structure Covered (a : ContextAgent) (userMessage : String) (budget : String → Int) : Prop where
  prefixText : 0 ≤ budget "prefix"
  memory : 0 ≤ budget "memory"
  relevantMemory : a.neededForNotes userMessage ≤ budget "relevant_memory"
  history : a.neededForHistory ≤ budget "history"

/-- The table takes a line feed for a blank, and no letter or colon of a heading for one. -/
structure RequestLetters (txt : PyText) : Prop where
  newline : txt.isSpace '\n' = true
  current : txt.isSpace 'C' = false
  agent : txt.isSpace 'A' = false
  colon : txt.isSpace ':' = false

/-! ## The sections -/

variable {c : ContextManager} {a : ContextAgent} {userMessage : String} {budgets final : Budgets}

theorem length_tailClip_le_iff (text : String) (limit : Int) :
    ((tailClip text limit).length : Int) ≤ limit ↔ 0 ≤ limit := by
  refine ⟨fun h => (Int.natCast_nonneg _).trans h, fun h => ?_⟩
  obtain ⟨n, rfl⟩ := Int.eq_ofNat_of_zero_le h
  have hlength := length_tailClip text n
  omega

theorem length_noteLines (notes : List String) :
    (noteLines notes).length = 16 + cost (notes.map ("- " ++ ·)) :=
  length_intercalate_newline _ _

/-- The notes are within their budget exactly where it covers what they need. -/
theorem relevantMemory_fits_iff (budget : Int) :
    ((a.renderRelevantMemory (a.selectedNotes userMessage) budget).rendered.length : Int) ≤ budget ↔
      a.neededForNotes userMessage ≤ budget := by
  unfold renderRelevantMemory neededForNotes shownNotes
  by_cases hnone : ((a.selectedNotes userMessage).filter
      fun text => pyStrip a.txt text ≠ "").isEmpty = true
  · rw [if_pos hnone, if_pos hnone]
  · rw [if_neg hnone, if_neg hnone]
    generalize (a.selectedNotes userMessage).filter (fun text => pyStrip a.txt text ≠ "") = texts
    dsimp only
    split
    · next hlong =>
      rw [length_tailClip_le_iff]
      omega
    · next hfits =>
      have hlength := length_noteLines
        (cutNotes texts (shrinkNotes texts budget (perNoteBudget budget texts.length).toNat))
      omega

/-- The history is within its budget exactly where it covers what it needs. -/
theorem historyBlock_fits_iff (budget : Int) :
    ((a.renderHistorySection budget).rendered.length : Int) ≤ budget ↔
      a.neededForHistory ≤ budget := by
  unfold renderHistorySection neededForHistory
  by_cases hnone : a.history.isEmpty = true
  · rw [if_pos hnone, if_pos hnone]
  · rw [if_neg hnone, if_neg hnone]
    dsimp only
    split
    · next hlong =>
      rw [length_tailClip_le_iff]
      omega
    · next hfits =>
      have hlength := length_transcript (linesOf (a.pickedEntries budget))
      omega

/-! ## The request -/

theorem toList_heading : "Current user request:\n".toList =
    'C' :: ("urrent user request".toList ++ [':', '\n']) := by
  decide +kernel

/-- A request ends with the message, below its heading. -/
theorem currentRequest_ends (a : ContextAgent) (userMessage : String) :
    ∃ front, (a.currentRequest userMessage).toList =
      front ++ 'C' :: ("urrent user request".toList ++ ':' :: '\n' :: userMessage.toList) := by
  have hmessage : ∀ text : String, ∃ front,
      (text ++ ("Current user request:\n" ++ userMessage)).toList =
        front ++ 'C' :: ("urrent user request".toList ++ ':' :: '\n' :: userMessage.toList) := by
    intro text
    refine ⟨text.toList, ?_⟩
    rw [String.toList_append, String.toList_append, toList_heading, List.cons_append,
      List.append_assoc, List.cons_append, List.singleton_append]
  unfold currentRequest
  dsimp only
  cases a.taskState with
  | none =>
    split
    · obtain ⟨front, hfront⟩ := hmessage ""
      exact ⟨front, by rw [← hfront, String.empty_append]⟩
    · exact hmessage _
  | some t =>
    dsimp only
    split
    · exact hmessage _
    · obtain ⟨front, hfront⟩ := hmessage (pyStrip a.txt a.checkpointText ++ "\n\n" ++
        (controlText t ++ "\n\n"))
      refine ⟨front, ?_⟩
      rw [← hfront]
      simp only [String.append_assoc]

theorem controlText_starts (t : TaskState) : ∃ rest, (controlText t).toList = 'A' :: rest := by
  have hjoined : ∀ lines : List String, ∃ rest,
      ("\n".intercalate ("Agent control state:" :: lines)).toList = 'A' :: rest := by
    intro lines
    cases lines with
    | nil => exact ⟨_, congrArg String.toList String.intercalate_singleton⟩
    | cons line lines =>
      rw [String.intercalate_cons_cons, String.toList_append, String.toList_append]
      exact ⟨_, rfl⟩
  exact hjoined _

/-- A request begins with a character that is no blank. -/
theorem currentRequest_starts (hletters : RequestLetters a.txt) (userMessage : String) :
    ∃ first rest, (a.currentRequest userMessage).toList = first :: rest ∧
      a.txt.isSpace first = false := by
  unfold currentRequest
  dsimp only
  split
  · cases a.taskState with
    | none =>
      refine ⟨'C', "urrent user request:\n".toList ++ userMessage.toList, ?_, hletters.current⟩
      dsimp only
      rw [String.toList_append]
      rfl
    | some t =>
      obtain ⟨rest, hrest⟩ := controlText_starts t
      refine ⟨'A', rest ++ ("\n\n".toList ++ ("Current user request:\n" ++ userMessage).toList), ?_,
        hletters.agent⟩
      dsimp only
      rw [String.toList_append, String.toList_append, hrest, List.append_assoc]
      rfl
  · next hcheckpoint =>
    cases hcs : (pyStrip a.txt a.checkpointText).toList with
    | nil => exact absurd (String.toList_eq_nil_iff.mp hcs) hcheckpoint
    | cons first rest =>
      have hhead : ∀ request : String, ∃ tail,
          (pyStrip a.txt a.checkpointText ++ "\n\n" ++ request).toList = first :: tail := by
        intro request
        rw [String.toList_append, String.toList_append, hcs]
        exact ⟨_, rfl⟩
      obtain ⟨tail, htail⟩ := hhead _
      exact ⟨first, tail, htail, not_isSpace_of_stripped (pyStrip_pyStrip _) hcs⟩

/-- The prompt is what is left when a text that ends with the request is stripped. -/
theorem assemblePrompt_eq (a : ContextAgent) (sections : Sections) :
    ∃ text, a.assemblePrompt sections = pyStrip a.txt text ∧
      sections.currentRequest.rendered.toList <:+ text.toList := by
  refine ⟨_, rfl, ?_⟩
  have hstep : ∀ (first : String) (rest : List String), rest ≠ [] →
      ("\n\n".intercalate rest).toList <:+ ("\n\n".intercalate (first :: rest)).toList := by
    intro first rest hrest
    rw [String.intercalate_cons_of_ne_nil hrest, String.toList_append]
    exact List.suffix_append _ _
  refine List.IsSuffix.trans ?_ (hstep _ _ (List.cons_ne_nil _ _))
  refine List.IsSuffix.trans ?_ (hstep _ _ (List.cons_ne_nil _ _))
  refine List.IsSuffix.trans ?_ (hstep _ _ (List.cons_ne_nil _ _))
  refine List.IsSuffix.trans ?_ (hstep _ _ (List.cons_ne_nil _ _))
  rw [String.intercalate_singleton]

theorem currentRequest_rendered (a : ContextAgent) (userMessage : String) (budgets : Budgets) :
    (a.renderSections userMessage budgets).currentRequest.rendered =
      a.currentRequest userMessage := rfl

/-- The prompt ends with the whole request exactly where the message does not end with a blank. -/
theorem requestWhole_iff (hletters : RequestLetters a.txt) (budgets : Budgets) :
    RequestWhole a userMessage ⟨a.promptWith userMessage budgets,
      a.renderSections userMessage budgets, budgets⟩ ↔ EndsSolid a.txt userMessage := by
  obtain ⟨text, hprompt, before, htext⟩ :=
    assemblePrompt_eq a (a.renderSections userMessage budgets)
  obtain ⟨heading, hheading⟩ := currentRequest_ends a userMessage
  obtain ⟨front, hends⟩ : ∃ front, (a.currentRequest userMessage).toList =
      front ++ '\n' :: userMessage.toList :=
    ⟨heading ++ 'C' :: ("urrent user request".toList ++ [':']), by rw [hheading]; simp⟩
  rw [currentRequest_rendered] at htext
  unfold RequestWhole
  rw [promptWith, hprompt]
  constructor
  · rintro ⟨kept, hkept⟩
    rcases List.eq_nil_or_concat userMessage.toList with hnil | ⟨init, last, hlast⟩
    · -- the line feed below the heading would be the end of the prompt
      rw [hends, hnil, ← List.append_assoc] at hkept
      have hsolid := not_isSpace_of_stripped_last (pyStrip_pyStrip text) hkept.symm
      rw [hletters.newline] at hsolid
      cases hsolid
    · rw [List.concat_eq_append] at hlast
      refine ⟨init, last, hlast, ?_⟩
      rw [hends, hlast] at hkept
      have hprompt' : (pyStrip a.txt text).toList =
          (kept ++ (front ++ '\n' :: init)) ++ [last] := by
        rw [← hkept]
        simp only [List.append_assoc, List.cons_append]
      exact not_isSpace_of_stripped_last (pyStrip_pyStrip text) hprompt'
  · rintro ⟨init, last, hlast, hsolid⟩
    obtain ⟨first, rest, hstarts, hfirst⟩ := currentRequest_starts hletters userMessage
    obtain ⟨mid, hmid⟩ : ∃ mid, rest = mid ++ [last] := by
      rw [hstarts, hlast] at hends
      cases front with
      | nil => exact ⟨init, (List.cons.inj hends).2⟩
      | cons d front => exact ⟨front ++ '\n' :: init, by rw [(List.cons.inj hends).2]; simp⟩
    rw [hstarts, hmid] at htext ⊢
    obtain ⟨front', rest', hstrip, _, hnone⟩ :=
      toList_pyStrip_of_solid hfirst hsolid htext.symm
    rw [List.prefix_nil.mp hnone] at hstrip
    exact ⟨front', hstrip.symm⟩

/-! ## The loop -/

/-- What the budgets of the reduction order are above their floors. -/
def aboveFloors (c : ContextManager) (budgets : Budgets) : Nat :=
  ∑ name ∈ c.reductionOrder.toFinset, (budgetOf budgets name - c.floor name).toNat

theorem reduction_some {overflow : Int} {order : List String} {name : String} {lowered : Int}
    (h : c.reduction budgets overflow order = some (name, lowered)) :
    name ∈ order ∧ c.floor name ≤ lowered ∧ lowered < budgetOf budgets name := by
  induction order with
  | nil => cases h
  | cons first rest ih =>
    unfold reduction at h
    dsimp only at h
    split at h
    · obtain ⟨hmem, hbounds⟩ := ih h
      exact ⟨List.mem_cons_of_mem _ hmem, hbounds⟩
    · split at h
      · obtain ⟨hmem, hbounds⟩ := ih h
        exact ⟨List.mem_cons_of_mem _ hmem, hbounds⟩
      · next hlower =>
        obtain ⟨rfl, rfl⟩ := Prod.mk.inj (Option.some.inj h)
        exact ⟨List.mem_cons_self, le_max_left _ _, not_le.mp hlower⟩

/-- Nothing is lowered only where every section is at its floor. -/
theorem reduction_none {overflow : Int} (hoverflow : 0 < overflow) {order : List String}
    (h : c.reduction budgets overflow order = none) :
    ∀ name ∈ order, budgetOf budgets name ≤ c.floor name := by
  induction order with
  | nil => exact fun name hname => absurd hname List.not_mem_nil
  | cons first rest ih =>
    unfold reduction at h
    dsimp only at h
    split at h
    · next hfloor =>
      intro name hname
      rcases List.mem_cons.mp hname with rfl | hrest
      · exact hfloor
      · exact ih h name hrest
    · next hfloor =>
      split at h
      · next hsame =>
        -- a positive overflow lowers a budget that is above its floor
        exfalso
        rcases le_max_iff.mp hsame with hle | hle
        · exact hfloor hle
        · omega
      · cases h

theorem aboveFloors_update {name : String} {lowered : Int} (hname : name ∈ c.reductionOrder)
    (hfloor : c.floor name ≤ lowered) (hlower : lowered < budgetOf budgets name) :
    aboveFloors c (Function.update budgets name (some lowered)) < aboveFloors c budgets := by
  have hsame : budgetOf (Function.update budgets name (some lowered)) name = lowered := by
    rw [budgetOf, Function.update_self]
    rfl
  refine Finset.sum_lt_sum (fun other _ => ?_) ⟨name, List.mem_toFinset.mpr hname, ?_⟩
  · by_cases hother : other = name
    · rw [hother, hsame]
      omega
    · rw [budgetOf, Function.update_of_ne hother]
      exact Nat.le_refl _
  · rw [hsame]
    omega

/-- What the loop makes of the budgets: it lowers those of its order, to their floors at most. -/
structure Lowered (c : ContextManager) (budgets final : Budgets) : Prop where
  isSome : ∀ name, (budgets name).isSome = true → (final name).isSome = true
  bounds : ∀ name, budgetOf final name = budgetOf budgets name ∨ (name ∈ c.reductionOrder ∧
    c.floor name ≤ budgetOf final name ∧ budgetOf final name ≤ budgetOf budgets name)

theorem Lowered.refl (c : ContextManager) (budgets : Budgets) : Lowered c budgets budgets :=
  ⟨fun _ h => h, fun _ => Or.inl rfl⟩

theorem Lowered.of_update {name : String} {lowered : Int} (hname : name ∈ c.reductionOrder)
    (hfloor : c.floor name ≤ lowered) (hlower : lowered < budgetOf budgets name)
    (h : Lowered c (Function.update budgets name (some lowered)) final) :
    Lowered c budgets final where
  isSome other hother := by
    refine h.isSome other ?_
    by_cases heq : other = name
    · rw [heq, Function.update_self]
      rfl
    · rw [Function.update_of_ne heq]
      exact hother
  bounds other := by
    have hother := h.bounds other
    by_cases heq : other = name
    · subst heq
      have hsame : budgetOf (Function.update budgets other (some lowered)) other = lowered := by
        rw [budgetOf, Function.update_self]
        rfl
      rw [hsame] at hother
      right
      refine ⟨hname, ?_⟩
      omega
    · have hsame : budgetOf (Function.update budgets name (some lowered)) other =
          budgetOf budgets other := by
        rw [budgetOf, Function.update_of_ne heq]
        rfl
      rw [hsame] at hother
      exact hother

/-- The loop ends, within the total budget or with every section at its floor. -/
theorem reduceLoop_spec (fuel : Nat) (budgets : Budgets) (hfuel : aboveFloors c budgets < fuel) :
    ∃ final, (∀ more, c.reduceLoop a userMessage (fuel + more) budgets = some final) ∧
      (((a.promptWith userMessage final).length : Int) ≤ c.totalBudget ∨
        ∀ name ∈ c.reductionOrder, budgetOf final name ≤ c.floor name) ∧
      Lowered c budgets final := by
  induction fuel generalizing budgets with
  | zero => exact absurd hfuel (Nat.not_lt_zero _)
  | succ fuel ih =>
    by_cases hlong : c.totalBudget < ((a.promptWith userMessage budgets).length : Int)
    · cases hreduction : c.reduction budgets
        ((a.promptWith userMessage budgets).length - c.totalBudget) c.reductionOrder with
      | none =>
        refine ⟨budgets, fun more => ?_, Or.inr (reduction_none (by omega) hreduction),
          Lowered.refl c budgets⟩
        rw [Nat.add_right_comm, reduceLoop, if_pos hlong, hreduction]
      | some found =>
        obtain ⟨name, lowered⟩ := found
        obtain ⟨hname, hfloor, hlower⟩ := reduction_some hreduction
        have hless := aboveFloors_update hname hfloor hlower
        obtain ⟨final, hruns, hlimited, hlowered⟩ := ih
          (Function.update budgets name (some lowered)) (by omega)
        refine ⟨final, fun more => ?_, hlimited, hlowered.of_update hname hfloor hlower⟩
        rw [Nat.add_right_comm, reduceLoop, if_pos hlong, hreduction]
        exact hruns more
    · refine ⟨budgets, fun more => ?_, Or.inl (not_lt.mp hlong), Lowered.refl c budgets⟩
      rw [Nat.add_right_comm, reduceLoop, if_neg hlong]

/-- The loop leaves no budget under the lowest one. -/
theorem Lowered.lowest_le (h : Lowered c c.budgets final) (name : String) :
    c.lowest name ≤ budgetOf final name := by
  unfold lowest
  have hname := h.bounds name
  split
  · omega
  · next hnot =>
    rcases hname with heq | ⟨hin, _⟩
    · rw [heq]
    · exact absurd hin hnot

/-- Where every section of the order is at its floor, every budget is the lowest one. -/
theorem Lowered.eq_lowest (h : Lowered c c.budgets final)
    (hfloors : ∀ name ∈ c.reductionOrder, budgetOf final name ≤ c.floor name) (name : String) :
    budgetOf final name = c.lowest name := by
  unfold lowest
  have hname := h.bounds name
  split
  · next hin =>
    have hfloor := hfloors name hin
    omega
  · next hnot =>
    rcases hname with heq | ⟨hin, _⟩
    · exact heq
    · exact absurd hin hnot

/-! ## The limits -/

theorem budgets_isSome (c : ContextManager) {name : String}
    (h : (defaultSectionBudgets.lookup name).isSome = true) : (c.budgets name).isSome = true := by
  unfold ContextManager.budgets
  cases c.sectionBudgets.lookup name with
  | some budget => rfl
  | none => exact h

theorem renderText_fits_iff {raw name : String} (h : (final name).isSome = true) :
    ((renderText raw (final name)).rendered.length : Int) ≤ budgetOf final name ↔
      0 ≤ budgetOf final name := by
  obtain ⟨budget, hbudget⟩ := Option.isSome_iff_exists.mp h
  have hvalue : budgetOf final name = budget := by
    rw [budgetOf, hbudget]
    rfl
  rw [hvalue, hbudget]
  exact length_tailClip_le_iff raw budget

/-- Every section is within its final budget exactly where these cover what the sections need. -/
theorem sectionsFit_iff (hlowered : Lowered c c.budgets final) (prompt : String) :
    SectionsFit ⟨prompt, a.renderSections userMessage final, final⟩ ↔
      Covered a userMessage (budgetOf final) := by
  have hprefix : (final "prefix").isSome = true :=
    hlowered.isSome _ (budgets_isSome c (by decide))
  have hmemory : (final "memory").isSome = true :=
    hlowered.isSome _ (budgets_isSome c (by decide))
  constructor
  · intro h
    exact ⟨(renderText_fits_iff hprefix).mp h.prefixText, (renderText_fits_iff hmemory).mp h.memory,
      (relevantMemory_fits_iff _).mp h.relevantMemory, (historyBlock_fits_iff _).mp h.history⟩
  · intro h
    exact ⟨(renderText_fits_iff hprefix).mpr h.prefixText,
      (renderText_fits_iff hmemory).mpr h.memory,
      (relevantMemory_fits_iff _).mpr h.relevantMemory, (historyBlock_fits_iff _).mpr h.history⟩

theorem Covered.mono {budget budget' : String → Int} (h : Covered a userMessage budget)
    (hle : ∀ name, budget name ≤ budget' name) : Covered a userMessage budget' :=
  ⟨h.prefixText.trans (hle _), h.memory.trans (hle _), h.relevantMemory.trans (hle _),
    h.history.trans (hle _)⟩

theorem ends_unique {built built' : Built} (h : Ends c a userMessage built)
    (h' : Ends c a userMessage built') : built = built' := by
  obtain ⟨fuel, hfuel⟩ := h
  obtain ⟨fuel', hfuel'⟩ := h'
  have hsame := hfuel fuel'
  rw [Nat.add_comm, hfuel' fuel] at hsame
  exact (Option.some.inj hsame).symm

/-- `build` returns the prompt of budgets that the loop lowered until nothing was left to do. -/
theorem build_ends (c : ContextManager) (userMessage : String)
    (hreduce : a.contextReduction = true) :
    ∃ final, Ends c a userMessage
        ⟨a.promptWith userMessage final, a.renderSections userMessage final, final⟩ ∧
      Lowered c c.budgets final ∧
      (((a.promptWith userMessage final).length : Int) ≤ c.totalBudget ∨
        ∀ name ∈ c.reductionOrder, budgetOf final name ≤ c.floor name) := by
  obtain ⟨final, hruns, hlimited, hlowered⟩ :=
    reduceLoop_spec (aboveFloors c c.budgets + 1) c.budgets (Nat.lt_succ_self _)
  refine ⟨final, ⟨aboveFloors c c.budgets + 1, fun more => ?_⟩, hlowered, hlimited⟩
  rw [build, if_pos hreduce, hruns more]
  rfl

/-- A prompt has more than one character. -/
theorem one_lt_promptWith (hletters : RequestLetters a.txt) (userMessage : String)
    (budgets : Budgets) : 1 < (a.promptWith userMessage budgets).length := by
  obtain ⟨text, hprompt, before, htext⟩ :=
    assemblePrompt_eq a (a.renderSections userMessage budgets)
  obtain ⟨front, hheading⟩ := currentRequest_ends a userMessage
  have hsolid : text.toList = (before ++ front) ++
      'C' :: ("urrent user request".toList ++ ':' :: '\n' :: userMessage.toList) := by
    rw [← htext, List.append_assoc, ← hheading, currentRequest_rendered]
  obtain ⟨front', rest', hstrip, _⟩ :=
    toList_pyStrip_of_solid hletters.current hletters.colon hsolid
  rw [promptWith, hprompt, ← String.length_toList, hstrip]
  simp only [List.length_append, List.length_cons]
  omega

/-- The loop always ends within the total budget or with every section at its floor, and the
sections and the request are within their limits under every total budget exactly where the lowest
budgets cover what the sections need and the message does not end with a blank. -/
theorem prompt_within_budgets_iff (c : ContextManager) (a : ContextAgent) (userMessage : String)
    (hletters : RequestLetters a.txt) (hreduce : a.contextReduction = true) :
    (∀ total, ∃ built, Ends (c.withTotal total) a userMessage built ∧
      (c.withTotal total).Limited built ∧
      (SectionsFit built ↔ Covered a userMessage (budgetOf built.budgets)) ∧
      (RequestWhole a userMessage built ↔ EndsSolid a.txt userMessage)) ∧
    ((∀ total, 0 < total → ∃ built, Ends (c.withTotal total) a userMessage built ∧
        (c.withTotal total).Respects a userMessage built) ↔
      Covered a userMessage c.lowest ∧ EndsSolid a.txt userMessage) := by
  refine ⟨fun total => ?_, fun hall => ?_, fun ⟨hcovered, hsolid⟩ total _ => ?_⟩
  · obtain ⟨final, hends, hlowered, hlimited⟩ :=
      build_ends (c.withTotal total) userMessage hreduce
    exact ⟨_, hends, hlimited, sectionsFit_iff hlowered _, requestWhole_iff hletters _⟩
  · obtain ⟨built, hends, hrespects⟩ := hall 1 Int.one_pos
    obtain ⟨final, hends', hlowered, hlimited⟩ := build_ends (c.withTotal 1) userMessage hreduce
    obtain rfl := ends_unique hends hends'
    -- the prompt is longer than one character, so the loop went to the floors
    have hfloors := hlimited.resolve_left fun hshort => by
      have hlong := one_lt_promptWith hletters userMessage final
      have htotal : (c.withTotal 1).totalBudget = 1 := rfl
      omega
    have hlowest : budgetOf final = c.lowest := funext fun name =>
      hlowered.eq_lowest hfloors name
    refine ⟨?_, (requestWhole_iff hletters _).mp hrespects.request⟩
    rw [← hlowest]
    exact (sectionsFit_iff hlowered _).mp hrespects.fit
  · obtain ⟨final, hends, hlowered, hlimited⟩ :=
      build_ends (c.withTotal total) userMessage hreduce
    refine ⟨_, hends, hlimited, (sectionsFit_iff hlowered _).mpr ?_,
      (requestWhole_iff hletters _).mpr hsolid⟩
    exact hcovered.mono fun name => hlowered.lowest_le name

/-- An agent without history and notes. -/
def freshAgent : ContextAgent := .withHistory []

theorem freshAgent_letters : RequestLetters freshAgent.txt := by
  constructor <;> decide

/-- With the default budgets, a first message is within all limits. -/
theorem prompt_within_budgets_fresh :
    ∃ built, Ends (({} : ContextManager).withTotal 12000) freshAgent "Fix the test." built ∧
      (({} : ContextManager).withTotal 12000).Respects freshAgent "Fix the test." built := by
  refine (prompt_within_budgets_iff {} freshAgent "Fix the test." freshAgent_letters rfl).2.mpr
    ⟨⟨?_, ?_, ?_, ?_⟩, "Fix the test".toList, '.', by decide, by decide⟩ 12000 (by decide) <;>
    decide +kernel

/-- Little room for the notes. -/
def tightManager : ContextManager where
  sectionBudgets := [("relevant_memory", 20)]

/-- A budget of 20 characters for the notes is exceeded when there are none, and the line feed at
the end of a message is cut off. -/
theorem fixed_text_overflows :
    (¬∃ built, Ends tightManager freshAgent "Fix the test." built ∧ SectionsFit built) ∧
    ¬∃ built, Ends {} freshAgent "Fix the test.\n" built ∧
      RequestWhole freshAgent "Fix the test.\n" built := by
  constructor
  · rintro ⟨built, hends, hfit⟩
    obtain ⟨final, hends', hlowered, _⟩ :=
      build_ends tightManager "Fix the test." (rfl : freshAgent.contextReduction = true)
    obtain rfl := ends_unique hends hends'
    have hneeded := ((sectionsFit_iff hlowered _).mp hfit).relevantMemory
    have hfinal := hlowered.bounds "relevant_memory"
    have hneed : freshAgent.neededForNotes "Fix the test." = 23 := by decide +kernel
    have hstart : budgetOf tightManager.budgets "relevant_memory" = 20 := by decide +kernel
    omega
  · rintro ⟨built, hends, hwhole⟩
    obtain ⟨final, hends', _⟩ :=
      build_ends {} "Fix the test.\n" (rfl : freshAgent.contextReduction = true)
    obtain rfl := ends_unique hends hends'
    obtain ⟨front, last, hlast, hsolid⟩ := (requestWhole_iff freshAgent_letters _).mp hwhole
    have hfeed : last = '\n' := by
      have hsplit : "Fix the test.\n".toList = "Fix the test.".toList ++ ['\n'] := by decide +kernel
      rw [hsplit] at hlast
      exact (List.head_eq_of_cons_eq (List.append_inj' hlast rfl).2).symm
    rw [hfeed] at hsolid
    exact absurd hsolid (by decide)

end ThreadForge
