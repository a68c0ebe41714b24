import Mathlib.Data.String.Basic
import ThreadForge.Hub.RunBlocks
import ThreadForge.Hub.Scrubbing
import ThreadForge.Lib.TailPairing
import ThreadForge.Pico.Security

/-!
# Which message a run is attached to

A session is shown with the last messages of its history, and with up to 100 of its tasks. The tasks
say nothing of the messages they left, so `_attach_run_detail` goes through both from their ends:
the last message of the assistant gets the task that was created last, and so on.

## Main results

* `RunPairing.attached_iff` — when every message gets the task that produced it.
* `RunPairing.not_attached` — a task without an answer shifts the pairs.
-/

namespace ThreadForge

open TailPairing

namespace RunPairing

variable (txt : PyText) (isWord : Char → Bool) (env : SecurityEnv)

/-! ## `get_session` -/

/-- `MESSAGE_CONTENT_MAX`. -/
def messageContentMax : Nat := 4000

/-- `_clip`. -/
def clip (text : String) (limit : Nat) : String :=
  if text.length ≤ limit then text else pyClip text (limit - 1) ++ "…"

/-- An item of `tasks`: the fields that are read, beside those of the replay. -/
structure ListedItem extends TaskItem where
  taskId : String
  input : String

/-- The item of a task. -/
def itemOf (task : Task) : ListedItem where
  taskId := task.taskId
  status := task.status.value
  input := clip (Security.redactText env task.input) messageContentMax
  finalAnswer := clip ((task.finalAnswer.map (Security.redactText env)).getD "") messageContentMax
  stopReason := task.stopReason
  createdAt := task.createdAt
  runIndex := task.runIndex

def roleOf (message : PyDict) : PyValue := message.getD "role" .none

/-- The places of the assistant's messages. -/
def answerPlaces (messages : List PyDict) : List Nat :=
  (List.range messages.length).filter fun place =>
    roleOf (messages[place]?.getD []) = .str "assistant"

/-- These places with the items: both from the end. -/
def pairedItems (messages : List PyDict) (items : List ListedItem) : List (Nat × ListedItem) :=
  (answerPlaces messages).reverse.zip
    (items.insertionSort fun a b => a.createdAt ≤ b.createdAt).reverse

/-- The nearest message of the user before a place. -/
def requestBefore (messages : List PyDict) (place : Nat) : Option PyDict :=
  (messages.take place).reverse.find? fun message => roleOf message = .str "user"

/-- The input of an item that is paired with a message. -/
def filledInput (messages : List PyDict) (place : Nat) (item : ListedItem) : String :=
  if pyStrip txt item.input ≠ "" then item.input
  else match requestBefore messages place with
    | none => item.input
    | some request =>
      clip (Security.redactText env (request.textOf txt "content")) messageContentMax

/-- What the loop does to the items, beside what it attaches to the messages. -/
def fillInputs (messages : List PyDict) (items : List ListedItem) : List ListedItem :=
  (pairedItems messages items).foldl
    (fun items pair => items.map fun item =>
      if item.taskId = pair.2.taskId then
        { item with input := filledInput txt env messages pair.1 pair.2 }
      else item)
    items

/-! ## A session -/

/-- A task of a session with the messages it left: none where the run never began, and an answer
where it came to one. -/
structure Turn where
  task : Task
  request : Option PyDict
  steps : List PyDict
  answer : Option PyDict
  request_role : ∀ message, request = some message → roleOf message = .str "user"
  steps_role : ∀ message ∈ steps,
    roleOf message ≠ .str "user" ∧ roleOf message ≠ .str "assistant"
  answer_role : ∀ message, answer = some message → roleOf message = .str "assistant"
  not_begun : request = none → steps = [] ∧ answer = none

def Turn.messages (turn : Turn) : List PyDict :=
  turn.request.toList ++ turn.steps ++ turn.answer.toList

/-- A session: its tasks, in the order in which they were created and left their messages, are those
the store has of it. -/
structure Conversation where
  index : TaskIndex
  sessionId : String
  ownerId : String
  turns : List Turn
  stored : (turns.map Turn.task).Perm
    (index.tasks.rows.filter fun row => row.sessionId = sessionId ∧ row.ownerId = ownerId)

namespace Conversation

/-- The history, each message with the turn it is of. -/
def history (c : Conversation) : List (Turn × PyDict) :=
  c.turns.flatMap fun turn => turn.messages.map fun message => (turn, message)

/-- The messages that are shown: `history[-message_limit:]`. -/
def shown (c : Conversation) (limit : Nat) : List (Turn × PyDict) := keptLast limit c.history

/-- The tasks of `list_for_session`. -/
def listed (c : Conversation) : List Task := (c.index.sessionRows c.sessionId c.ownerId).take 100

/-- The tasks that produced the answers that are shown. -/
def producers (c : Conversation) (limit : Nat) : List Task :=
  ((c.shown limit).filter fun entry => roleOf entry.2 = .str "assistant").map fun entry =>
    entry.1.task

end Conversation

/-- Each message and each item has what is its own. -/
structure Attached (c : Conversation) (limit : Nat) : Prop where
  /-- A message of the assistant is paired with the task that produced it. -/
  own : ∀ (place : Nat) turn message, (c.shown limit)[place]? = some (turn, message) →
    roleOf message = .str "assistant" →
    (place, itemOf env turn.task) ∈
      pairedItems ((c.shown limit).map Prod.snd) (c.listed.map (itemOf env))
  /-- A content that is replaced is replaced by the text of that task. -/
  content : ∀ (place : Nat) message (detail : RunDetail) text,
    (attachRunDetail txt isWord ((c.shown limit).map Prod.snd)
      (c.listed.map fun task => (itemOf env task).toTaskItem))[place]? =
        some (message, some detail) →
    detail.content = some text →
    ∃ turn : Turn, (c.shown limit)[place]? = some (turn, message) ∧
      text = terminalContent txt isWord (itemOf env turn.task).toTaskItem
  /-- An input that is put in is a request of the task. -/
  input : ∀ task ∈ c.listed, ∀ item ∈ fillInputs txt env ((c.shown limit).map Prod.snd)
      (c.listed.map (itemOf env)), item.taskId = task.taskId →
    item.input = (itemOf env task).input ∨ ∃ turn request, (turn, request) ∈ c.shown limit ∧
      roleOf request = .str "user" ∧ turn.task = task ∧
      item.input = clip (Security.redactText env (request.textOf txt "content")) messageContentMax

/-- Every task whose answer is shown is listed, and the listed ones that were created since then are
just those, in the order of their answers. -/
structure InStep (c : Conversation) (limit : Nat) : Prop where
  listed : ∀ task ∈ c.producers limit, task ∈ c.listed
  ordered : (c.producers limit).Pairwise (Earlier Task.createdAt c.listed)
  answered : ∀ task ∈ c.listed, task ∉ c.producers limit → ∀ producer ∈ c.producers limit,
    Earlier Task.createdAt c.listed task producer

/-! ## The pairs of a session -/

section Laws

variable {txt isWord env} {c : Conversation} {limit place : Nat} {turn : Turn}
  {message request : PyDict} {task : Task}

theorem mem_listed_subset (h : task ∈ c.listed) : task ∈ c.index.tasks.rows :=
  (Scrubbing.mem_sessionRows.mp (List.mem_of_mem_take h)).1

theorem mem_shown (h : (turn, message) ∈ c.shown limit) : turn ∈ c.turns := by
  obtain ⟨other, hother, hin⟩ := List.mem_flatMap.mp (List.mem_of_mem_drop h)
  obtain ⟨message', -, hpair⟩ := List.mem_map.mp hin
  rw [← (Prod.mk.inj hpair).1]
  exact hother

theorem turn_stored (h : turn ∈ c.turns) : turn.task ∈ c.index.tasks.rows :=
  List.mem_of_mem_filter (c.stored.mem_iff.mp (List.mem_map_of_mem h))

/-- A stored task is known by its id. -/
theorem eq_of_taskId {a b : Task} (ha : a ∈ c.index.tasks.rows) (hb : b ∈ c.index.tasks.rows)
    (h : a.taskId = b.taskId) : a = b :=
  List.inj_on_of_nodup_map c.index.tasks.nodup ha hb h

theorem nodup_listed : c.listed.Nodup :=
  (List.Nodup.of_map _ (Scrubbing.nodup_sessionRows c.index c.sessionId c.ownerId)).sublist
    (List.take_sublist _ _)

theorem pairedItems_map (messages : List PyDict) (tasks : List Task) :
    pairedItems messages (tasks.map (itemOf env)) =
      (answerPlaces messages).reverse.zip
        ((tasks.insertionSort fun a b => a.createdAt ≤ b.createdAt).map (itemOf env)).reverse := by
  have hsort : (tasks.insertionSort fun a b => a.createdAt ≤ b.createdAt).map (itemOf env) =
      (tasks.map (itemOf env)).insertionSort fun a b => a.createdAt ≤ b.createdAt :=
    List.map_insertionSort _ _ (itemOf env) tasks fun _ _ _ _ => Iff.rfl
  unfold pairedItems
  rw [hsort]

theorem pairedTasks_map (messages : List PyDict) (items : List ListedItem) :
    pairedTasks messages (items.map ListedItem.toTaskItem) =
      (pairedItems messages items).map (Prod.map id ListedItem.toTaskItem) := by
  have hsort : (items.insertionSort fun a b => a.createdAt ≤ b.createdAt).map
        ListedItem.toTaskItem =
      (items.map ListedItem.toTaskItem).insertionSort fun a b => a.createdAt ≤ b.createdAt :=
    List.map_insertionSort _ _ ListedItem.toTaskItem items fun _ _ _ _ => Iff.rfl
  unfold pairedTasks pairedItems
  rw [← hsort, ← List.map_reverse, List.zip_map_right]
  rfl

theorem nodup_pairedItems (messages : List PyDict) (items : List ListedItem) :
    ((pairedItems messages items).map Prod.fst).Nodup := by
  unfold pairedItems
  refine List.Nodup.sublist (map_fst_zip_sublist _ _) ?_
  exact List.nodup_reverse.mpr (List.Nodup.filter _ List.nodup_range)

theorem eq_of_paired {messages : List PyDict} {items : List ListedItem} {a b : ListedItem}
    (ha : (place, a) ∈ pairedItems messages items)
    (hb : (place, b) ∈ pairedItems messages items) : a = b :=
  (Prod.mk.inj (List.inj_on_of_nodup_map (nodup_pairedItems messages items) ha hb rfl)).2

/-- A place that is paired is one of an answer. -/
theorem paired_shown {items : List ListedItem} {item : ListedItem}
    (h : (place, item) ∈ pairedItems ((c.shown limit).map Prod.snd) items) :
    ∃ turn message, (c.shown limit)[place]? = some (turn, message) ∧
      roleOf message = .str "assistant" := by
  obtain ⟨hplace, -⟩ := List.of_mem_zip h
  rw [List.mem_reverse, answerPlaces, List.mem_filter, List.mem_range, List.length_map,
    decide_eq_true_eq, List.getElem?_map] at hplace
  rw [List.getElem?_eq_getElem hplace.1] at hplace ⊢
  exact ⟨_, _, rfl, hplace.2⟩

/-- An answer is told by its place or by what is shown there. -/
theorem answer_places {entries : List (Turn × PyDict)} (place : Nat) (entry : Turn × PyDict)
    (h : entries[place]? = some entry) :
    decide (roleOf ((entries.map Prod.snd)[place]?.getD []) = .str "assistant") =
      decide (roleOf entry.2 = .str "assistant") := by
  rw [List.getElem?_map, h]
  rfl

theorem producer_stored (h : task ∈ c.producers limit) : task ∈ c.index.tasks.rows := by
  obtain ⟨⟨turn, message⟩, hentry, rfl⟩ := List.mem_map.mp h
  exact turn_stored (mem_shown (List.mem_of_mem_filter hentry))

variable (c limit) in
theorem length_answerPlaces :
    (answerPlaces ((c.shown limit).map Prod.snd)).length = (c.producers limit).length := by
  unfold answerPlaces
  rw [List.length_map, length_filter_range answer_places, Conversation.producers, List.length_map]

/-- The place of an answer stands beside the task that produced it. -/
theorem mem_zip_producers {task : Task} :
    (place, task) ∈ (answerPlaces ((c.shown limit).map Prod.snd)).zip (c.producers limit) ↔
      ∃ turn message, (c.shown limit)[place]? = some (turn, message) ∧
        roleOf message = .str "assistant" ∧ task = turn.task := by
  unfold answerPlaces Conversation.producers
  rw [List.length_map, mem_zip_filter_iff answer_places]
  constructor
  · rintro ⟨⟨turn, message⟩, hget, hanswer, rfl⟩
    exact ⟨turn, message, hget, of_decide_eq_true hanswer, rfl⟩
  · rintro ⟨turn, message, hget, hanswer, rfl⟩
    exact ⟨_, hget, decide_eq_true hanswer, rfl⟩

theorem nodup_answerPlaces (messages : List PyDict) : (answerPlaces messages).Nodup :=
  List.nodup_range.filter _

variable (env c limit) in
/-- Every answer has its task exactly when the tasks of the answers are the last ones that were
created. -/
theorem own_iff_isSuffix :
    (∀ (place : Nat) turn message, (c.shown limit)[place]? = some (turn, message) →
      roleOf message = .str "assistant" →
      (place, itemOf env turn.task) ∈
        pairedItems ((c.shown limit).map Prod.snd) (c.listed.map (itemOf env))) ↔
    c.producers limit <:+ c.listed.insertionSort fun a b => a.createdAt ≤ b.createdAt := by
  have hinj : ∀ a ∈ c.producers limit,
      ∀ b ∈ c.listed.insertionSort fun a b => a.createdAt ≤ b.createdAt,
      itemOf env a = itemOf env b → a = b := by
    intro a ha b hb heq
    exact eq_of_taskId (producer_stored ha)
      (mem_listed_subset ((List.mem_insertionSort _).mp hb)) (congrArg ListedItem.taskId heq)
  have hlength : (answerPlaces ((c.shown limit).map Prod.snd)).length =
      ((c.producers limit).map (itemOf env)).length := by
    rw [List.length_map, length_answerPlaces]
  rw [← map_suffix_map_iff hinj,
    ← zip_subset_zip_reverse_iff hlength (nodup_answerPlaces _), pairedItems_map,
    List.zip_map_right]
  constructor
  · intro h pair hpair
    obtain ⟨⟨place, task⟩, hin, rfl⟩ := List.mem_map.mp hpair
    obtain ⟨turn, message, hget, hanswer, rfl⟩ := mem_zip_producers.mp hin
    exact h place turn message hget hanswer
  · intro h place turn message hget hanswer
    exact h _ (List.mem_map_of_mem (mem_zip_producers.mpr ⟨turn, message, hget, hanswer, rfl⟩))

variable (c limit) in
/-- The tasks of the answers are the last ones exactly where the answers are in step with the
tasks. -/
theorem isSuffix_iff_inStep :
    c.producers limit <:+ (c.listed.insertionSort fun a b => a.createdAt ≤ b.createdAt) ↔
      InStep c limit := by
  refine (isSuffix_insertionSort_iff Task.createdAt nodup_listed).trans ?_
  exact ⟨fun h => ⟨h.1, h.2.1, h.2.2⟩, fun h => ⟨h.listed, h.ordered, h.answered⟩⟩

/-! ## What is put into the contents -/

variable (txt isWord) in
/-- What is attached at a place is of the task it is paired with. -/
theorem attached_paired {messages : List PyDict} {tasks : List TaskItem} {detail : RunDetail}
    (h : (attachRunDetail txt isWord messages tasks)[place]? = some (message, some detail)) :
    messages[place]? = some message ∧
      ∃ task, (place, task) ∈ pairedTasks messages tasks ∧ detail = runDetail txt isWord task := by
  have hnodup : ((pairedTasks messages tasks).map Prod.fst).Nodup := by
    refine List.Nodup.sublist (map_fst_zip_sublist _ _) ?_
    exact List.nodup_reverse.mpr (List.Nodup.filter _ List.nodup_range)
  have hattach : attachRunDetail txt isWord messages tasks =
      (pairedTasks messages tasks).foldl
        (fun out pair => out.modify pair.1 fun message : PyDict × Option RunDetail =>
          (message.1, some (runDetail txt isWord pair.2)))
        (messages.map fun message => (message, none)) := rfl
  rw [hattach] at h
  by_cases hplace : place ∈ (pairedTasks messages tasks).map Prod.fst
  · obtain ⟨⟨place', task⟩, hpaired, rfl⟩ := List.mem_map.mp hplace
    rw [foldl_modify_of_mem (fun (task : TaskItem) (message : PyDict × Option RunDetail) =>
      (message.1, some (runDetail txt isWord task))) _ _ hnodup hpaired, List.getElem?_map,
      Option.map_map] at h
    obtain ⟨message', hget, hpair⟩ := Option.map_eq_some_iff.mp h
    obtain ⟨rfl, hdetail⟩ := Prod.mk.inj hpair
    exact ⟨hget, task, hpaired, (Option.some.inj hdetail).symm⟩
  · rw [foldl_modify_of_not_mem (fun (task : TaskItem) (message : PyDict × Option RunDetail) =>
      (message.1, some (runDetail txt isWord task))) _ _ hplace, List.getElem?_map] at h
    obtain ⟨message', -, hpair⟩ := Option.map_eq_some_iff.mp h
    cases (Prod.mk.inj hpair).2

theorem terminalContent_of_content {item : TaskItem} {text : String}
    (h : (runDetail txt isWord item).content = some text) :
    text = terminalContent txt isWord item := by
  unfold runDetail at h
  dsimp only at h
  split at h
  · cases h
  · exact (Option.some.inj h).symm

/-! ## What is put into the inputs -/

/-- Before an answer stand the request of its turn and what came between. -/
theorem answer_history {turns : List Turn} {place : Nat}
    (h : (turns.flatMap fun turn => turn.messages.map fun message => (turn, message))[place]? =
      some (turn, message)) (hanswer : roleOf message = .str "assistant") :
    ∃ front request, roleOf request = .str "user" ∧
      (turns.flatMap fun turn => turn.messages.map fun message => (turn, message)).take place =
        front ++ (turn, request) :: turn.steps.map fun message => (turn, message) := by
  induction turns generalizing place with
  | nil => cases h
  | cons first rest ih =>
    rw [List.flatMap_cons] at h ⊢
    by_cases hplace : place < (first.messages.map fun message => (first, message)).length
    · rw [List.getElem?_append_left hplace, List.getElem?_map] at h
      rw [List.take_append_of_le_length hplace.le]
      obtain ⟨message', hget, hpair⟩ := Option.map_eq_some_iff.mp h
      obtain ⟨rfl, rfl⟩ := Prod.mk.inj hpair
      clear h hplace hpair
      unfold Turn.messages at hget ⊢
      cases hrequest : first.request with
      | none =>
        obtain ⟨hsteps, hnone⟩ := first.not_begun hrequest
        rw [hrequest, hsteps, hnone] at hget
        cases hget
      | some request =>
        refine ⟨[], request, first.request_role request hrequest, ?_⟩
        rw [hrequest] at hget
        cases place with
        | zero =>
          obtain rfl : request = message' := Option.some.inj hget
          rw [first.request_role request hrequest] at hanswer
          exact absurd hanswer (by decide)
        | succ place =>
          rw [Option.toList_some, List.singleton_append, List.cons_append,
            List.getElem?_cons_succ] at hget
          have hpast : first.steps.length ≤ place := by
            refine Nat.le_of_not_lt fun hlt => ?_
            rw [List.getElem?_append_left hlt] at hget
            exact (first.steps_role _ (List.mem_of_getElem? hget)).2 hanswer
          have hlast : place = first.steps.length := by
            rw [List.getElem?_append_right hpast] at hget
            have hlt := (List.getElem?_eq_some_iff.mp hget).1
            have hone : first.answer.toList.length ≤ 1 := Option.length_toList_le
            omega
          rw [hlast, Option.toList_some, List.singleton_append, List.cons_append, List.map_cons,
            List.take_succ_cons, List.map_append, List.take_append_of_le_length
              (List.length_map _).ge, List.take_of_length_le (List.length_map _).le]
          rfl
    · rw [Nat.not_lt] at hplace
      rw [List.getElem?_append_right hplace] at h
      obtain ⟨front, request, hrole, htake⟩ := ih h
      refine ⟨(first.messages.map fun message => (first, message)) ++ front, request, hrole, ?_⟩
      rw [List.take_append, List.take_of_length_le hplace, htake, List.append_assoc]

/-- The request that is found for an answer is the one of its turn. -/
theorem requestBefore_own (h : (c.shown limit)[place]? = some (turn, message))
    (hanswer : roleOf message = .str "assistant")
    (hrequest : requestBefore ((c.shown limit).map Prod.snd) place = some request) :
    (turn, request) ∈ c.shown limit ∧ roleOf request = .str "user" := by
  obtain ⟨cut, hshown⟩ : ∃ cut, c.shown limit = c.history.drop cut := ⟨_, rfl⟩
  have hrole : roleOf request = .str "user" := by
    have hfound := List.find?_some hrequest
    exact of_decide_eq_true hfound
  refine ⟨?_, hrole⟩
  rw [hshown, List.getElem?_drop] at h
  obtain ⟨front, own, howner, htake⟩ := answer_history h hanswer
  have hnone : ∀ {steps : List PyDict}, (∀ step ∈ steps, step ∈ turn.steps) →
      steps.reverse.find? (fun message => roleOf message = .str "user") = none := by
    intro steps hsteps
    rw [List.find?_eq_none]
    intro step hin huser
    exact (turn.steps_role step (hsteps step (List.mem_reverse.mp hin))).1
      (of_decide_eq_true huser)
  have hbefore : (c.shown limit).take place =
      (front ++ (turn, own) :: turn.steps.map fun message => (turn, message)).drop cut := by
    rw [← htake, hshown]
    exact List.take_drop
  unfold requestBefore at hrequest
  rw [← List.map_take, hbefore] at hrequest
  have hmessages : (turn.steps.map fun message => (turn, message)).map Prod.snd = turn.steps := by
    rw [List.map_map]
    exact List.map_id _
  by_cases hcut : cut ≤ front.length
  · -- the request of the turn is shown
    rw [List.drop_append_of_le_length hcut, List.map_append, List.map_cons, hmessages,
      List.reverse_append, List.reverse_cons, List.append_assoc, List.find?_append,
      hnone fun _ => id, Option.none_or, List.singleton_append, List.find?_cons] at hrequest
    dsimp only at hrequest
    rw [decide_eq_true howner] at hrequest
    obtain rfl := Option.some.inj hrequest
    refine List.mem_of_mem_take (i := place) ?_
    rw [hbefore, List.drop_append_of_le_length hcut]
    exact List.mem_append_right _ List.mem_cons_self
  · -- it is cut off, and so is every request before it
    rw [List.drop_append, List.drop_of_length_le (by omega), List.nil_append] at hrequest
    obtain ⟨m, hm⟩ : ∃ m, cut - front.length = m + 1 := ⟨cut - front.length - 1, by omega⟩
    rw [hm, List.drop_succ_cons, List.map_drop, hmessages,
      hnone fun _ => List.mem_of_mem_drop] at hrequest
    cases hrequest

variable (txt env) in
/-- An item keeps its input, or is paired with the message it is filled for. -/
theorem input_fillInputs {messages : List PyDict} {items : List ListedItem} {item : ListedItem}
    (h : item ∈ fillInputs txt env messages items) :
    (∃ old ∈ items, old.taskId = item.taskId ∧ item.input = old.input) ∨
      ∃ place old, (place, old) ∈ pairedItems messages items ∧ old.taskId = item.taskId ∧
        item.input = filledInput txt env messages place old := by
  have hfold : ∀ (pairs : List (Nat × ListedItem)) (out : List ListedItem),
      item ∈ pairs.foldl (fun items pair => items.map fun item =>
        if item.taskId = pair.2.taskId then
          { item with input := filledInput txt env messages pair.1 pair.2 }
        else item) out →
      (∃ old ∈ out, old.taskId = item.taskId ∧ item.input = old.input) ∨
        ∃ place old, (place, old) ∈ pairs ∧ old.taskId = item.taskId ∧
          item.input = filledInput txt env messages place old := by
    intro pairs
    induction pairs with
    | nil => exact fun out hin => Or.inl ⟨item, hin, rfl, rfl⟩
    | cons pair rest ih =>
      intro out hin
      rcases ih _ hin with ⟨old, hold, hid, hinput⟩ | ⟨place, old, hpair, hid, hinput⟩
      · obtain ⟨older, holder, rfl⟩ := List.mem_map.mp hold
        by_cases hsame : older.taskId = pair.2.taskId
        · rw [if_pos hsame] at hid hinput
          exact Or.inr ⟨pair.1, pair.2, List.mem_cons_self, hsame.symm.trans hid, hinput⟩
        · rw [if_neg hsame] at hid hinput
          exact Or.inl ⟨older, holder, hid, hinput⟩
      · exact Or.inr ⟨place, old, List.mem_cons_of_mem _ hpair, hid, hinput⟩
  exact hfold _ _ h

/-- The input of an item that is paired with the answer of its own task. -/
theorem filledInput_own (h : (c.shown limit)[place]? = some (turn, message))
    (hanswer : roleOf message = .str "assistant") :
    filledInput txt env ((c.shown limit).map Prod.snd) place (itemOf env turn.task) =
        (itemOf env turn.task).input ∨
      ∃ request, (turn, request) ∈ c.shown limit ∧ roleOf request = .str "user" ∧
        filledInput txt env ((c.shown limit).map Prod.snd) place (itemOf env turn.task) =
          clip (Security.redactText env (request.textOf txt "content")) messageContentMax := by
  unfold filledInput
  by_cases hblank : pyStrip txt (itemOf env turn.task).input ≠ ""
  · exact Or.inl (if_pos hblank)
  · rw [if_neg hblank]
    cases hrequest : requestBefore ((c.shown limit).map Prod.snd) place with
    | none => exact Or.inl rfl
    | some request =>
      obtain ⟨hin, hrole⟩ := requestBefore_own h hanswer hrequest
      exact Or.inr ⟨request, hin, hrole, rfl⟩

/-! ## When the pairs are right -/

/-- Where every answer has its own task, nothing else is put anywhere. -/
theorem attached_of_own
    (hown : ∀ (place : Nat) turn message, (c.shown limit)[place]? = some (turn, message) →
      roleOf message = .str "assistant" →
      (place, itemOf env turn.task) ∈
        pairedItems ((c.shown limit).map Prod.snd) (c.listed.map (itemOf env))) :
    Attached txt isWord env c limit := by
  refine ⟨hown, fun place message detail text hattach hcontent => ?_,
    fun task htask item hitem hid => ?_⟩
  · obtain ⟨hmessage, task, hpaired, rfl⟩ := attached_paired txt isWord hattach
    have hitems : (c.listed.map fun task => (itemOf env task).toTaskItem) =
        (c.listed.map (itemOf env)).map ListedItem.toTaskItem := by
      rw [List.map_map]
      rfl
    rw [hitems, pairedTasks_map] at hpaired
    obtain ⟨⟨place', item⟩, hitem, hpair⟩ := List.mem_map.mp hpaired
    obtain ⟨rfl, rfl⟩ := Prod.mk.inj hpair
    obtain ⟨turn, message', hget, hanswer⟩ := paired_shown hitem
    rw [List.getElem?_map] at hmessage
    rw [show id place' = place' from rfl, hget] at hmessage
    obtain rfl := Option.some.inj hmessage
    refine ⟨turn, hget, ?_⟩
    rw [eq_of_paired (hown place' turn message' hget hanswer) hitem]
    exact terminalContent_of_content hcontent
  · rcases input_fillInputs txt env hitem with
      ⟨old, hold, hsame, hinput⟩ | ⟨place, old, hpaired, hsame, hinput⟩
    · obtain ⟨other, hother, rfl⟩ := List.mem_map.mp hold
      have htasks : other = task :=
        eq_of_taskId (mem_listed_subset hother) (mem_listed_subset htask) (hsame.trans hid)
      rw [← htasks]
      exact Or.inl hinput
    · obtain ⟨turn, message, hget, hanswer⟩ := paired_shown hpaired
      obtain rfl := eq_of_paired hpaired (hown place turn message hget hanswer)
      have hturn : turn ∈ c.turns := mem_shown (List.mem_of_getElem? hget)
      have htasks : turn.task = task :=
        eq_of_taskId (turn_stored hturn) (mem_listed_subset htask) (hsame.trans hid)
      rw [hinput, ← htasks]
      rcases filledInput_own hget hanswer with hkept | ⟨request, hin, hrole, hfilled⟩
      · exact Or.inl hkept
      · exact Or.inr ⟨turn, request, hin, hrole, rfl, hfilled⟩

/-- Where all is attached as it should be, the answers are in step with the tasks. -/
theorem inStep_of_attached (h : Attached txt isWord env c limit) : InStep c limit :=
  (isSuffix_iff_inStep c limit).mp ((own_iff_isSuffix env c limit).mp h.own)

end Laws

/-- **Every answer that is shown has its own task, its own text and its own request** exactly when
the tasks of these answers are all listed, in the order in which they were created, and no listed
task without an answer was created since the first of them. -/
theorem attached_iff (txt : PyText) (isWord : Char → Bool) (env : SecurityEnv) (c : Conversation)
    (limit : Nat) : Attached txt isWord env c limit ↔ InStep c limit :=
  ⟨inStep_of_attached, fun h =>
    attached_of_own ((own_iff_isSuffix env c limit).mpr ((isSuffix_iff_inStep c limit).mpr h))⟩

namespace Interrupted

/-- A task of the session. -/
def task (taskId createdAt : String) (status : TaskStatus) : Task where
  taskId := taskId
  sessionId := "session_1"
  workspaceId := "ws_1"
  ownerId := "user_1"
  runId := ""
  input := ""
  status := status
  createdAt := createdAt
  updatedAt := createdAt

def first : Task := task "task_1" "2026-01-01T00:00:00Z" .completed

/-- The Worker was gone before the second run had an answer. -/
def second : Task := task "task_2" "2026-01-01T00:01:00Z" .interrupted

/-- A server without secrets. -/
def noSecrets : SecurityEnv where
  upper := String.toUpper
  environ := []
  secretEnvNames := []

def message (role content : String) : PyDict :=
  [("role", .str role), ("name", .str ""), ("content", .str content), ("created_at", .str "")]

def turns : List Turn :=
  [{ task := first
     request := some (message "user" "What is in a.txt?")
     steps := []
     answer := some (message "assistant" "A line.")
     request_role := fun _ h => by rw [← Option.some.inj h]; rfl
     steps_role := fun _ h => absurd h List.not_mem_nil
     answer_role := fun _ h => by rw [← Option.some.inj h]; rfl
     not_begun := fun h => by cases h },
   { task := second
     request := some (message "user" "And in b.txt?")
     steps := []
     answer := none
     request_role := fun _ h => by rw [← Option.some.inj h]; rfl
     steps_role := fun _ h => absurd h List.not_mem_nil
     answer_role := fun _ h => by cases h
     not_begun := fun h => by cases h }]

def conversation : Conversation where
  index := {
    tasks := { rows := [first, second], nodup := by decide }
    runs := { rows := [], nodup := List.nodup_nil } }
  sessionId := "session_1"
  ownerId := "user_1"
  turns := turns
  stored := List.Perm.refl _

theorem producers_eq : conversation.producers 100 = [first] := by decide +kernel

theorem second_listed : second ∈ conversation.listed := by
  unfold Conversation.listed
  rw [List.take_of_length_le (by decide +kernel), Scrubbing.mem_sessionRows]
  exact ⟨List.mem_cons_of_mem _ List.mem_cons_self, rfl, rfl⟩

end Interrupted

open RunPairing.Interrupted in
/-- **A task that was interrupted takes the answer of the one before it.** -/
theorem not_attached : ¬ ∀ (txt : PyText) (isWord : Char → Bool) (env : SecurityEnv)
    (c : Conversation) (limit : Nat), Attached txt isWord env c limit := by
  intro hclaim
  have hstep := inStep_of_attached
    (hclaim .ascii (fun _ => false) noSecrets conversation 100)
  have hunanswered : second ∉ conversation.producers 100 := by
    rw [producers_eq]
    decide
  have hproducer : first ∈ conversation.producers 100 := by
    rw [producers_eq]
    exact List.mem_cons_self
  rcases hstep.answered second second_listed hunanswered first hproducer with hlt | ⟨heq, -⟩
  · exact absurd hlt (by decide)
  · exact absurd heq (by decide)

end RunPairing

end ThreadForge
