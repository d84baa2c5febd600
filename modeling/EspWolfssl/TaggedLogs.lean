import Mathlib.Data.List.Basic
import Mathlib.Tactic.TypeStar

/-!
Logs of events tagged with the agent that caused them. A view keeps the events
an observer recognises, in order and with their tags; the latest event of one
agent is the last one of its events that the observer recognises.
-/
namespace EspWolfssl.TaggedLogs

variable {α ε β : Type*}

/-- The events of one agent, tagged with it. -/
def tag (x : α) (events : List ε) : List (α × ε) := events.map (Prod.mk x)

@[simp] theorem tag_nil (x : α) : tag x ([] : List ε) = [] := rfl

@[simp] theorem tag_cons (x : α) (e : ε) (events : List ε) :
    tag x (e :: events) = (x, e) :: tag x events := rfl

@[simp] theorem tag_append (x : α) (left right : List ε) :
    tag x (left ++ right) = tag x left ++ tag x right := List.map_append

theorem tag_injective (x : α) : Function.Injective (tag x : List ε → List (α × ε)) :=
  List.map_injective_iff.mpr fun _ _ h => (Prod.mk.inj h).2

/-- The part of a log that an observer recognises. -/
def view (f : ε → Option β) (log : List (α × ε)) : List (α × β) :=
  log.filterMap fun entry => (f entry.2).map (Prod.mk entry.1)

@[simp] theorem view_nil (f : ε → Option β) : view f ([] : List (α × ε)) = [] := rfl

@[simp] theorem view_append (f : ε → Option β) (left right : List (α × ε)) :
    view f (left ++ right) = view f left ++ view f right := List.filterMap_append

theorem view_tag (f : ε → Option β) (x : α) (events : List ε) :
    view f (tag x events) = tag x (events.filterMap f) := by
  induction events with
  | nil => rfl
  | cons e rest ih =>
    have hcons : view f (tag x (e :: rest)) = view f [(x, e)] ++ view f (tag x rest) :=
      view_append f [(x, e)] (tag x rest)
    rw [hcons, ih]
    cases hf : f e <;> simp [view, hf]

theorem view_snoc_of_some (f : ε → Option β) (x : α) (log : List (α × ε)) {e : ε} {v : β}
    (hf : f e = some v) : view f (log ++ [(x, e)]) = view f log ++ [(x, v)] := by
  rw [view_append]
  simp [view, hf]

theorem view_snoc_of_none (f : ε → Option β) (x : α) (log : List (α × ε)) {e : ε}
    (hf : f e = none) : view f (log ++ [(x, e)]) = view f log := by
  rw [view_append]
  simp [view, hf]

/-- Every entry satisfies a property that may look at the log before it. -/
def Throughout (P : List (α × ε) → α × ε → Prop) (log : List (α × ε)) : Prop :=
  ∀ pre entry post, log = pre ++ entry :: post → P pre entry

theorem throughout_nil (P : List (α × ε) → α × ε → Prop) : Throughout P [] := by
  intro pre entry post hlog
  simp at hlog

theorem throughout_snoc (P : List (α × ε) → α × ε → Prop) (log : List (α × ε))
    (entry : α × ε) : Throughout P (log ++ [entry]) ↔ Throughout P log ∧ P log entry := by
  constructor
  · intro h
    refine ⟨?_, h log entry [] rfl⟩
    intro pre e post hlog
    exact h pre e (post ++ [entry]) (by simp [hlog])
  · rintro ⟨hlog, hlast⟩ pre e post heq
    rcases List.eq_nil_or_concat post with rfl | ⟨front, last, rfl⟩
    · obtain ⟨rfl, he⟩ := List.append_inj' heq rfl
      obtain rfl : entry = e := List.head_eq_of_cons_eq he
      exact hlast
    · have hsplit : log ++ [entry] = (pre ++ e :: front) ++ [last] := by
        simpa using heq
      exact hlog pre e front (List.append_inj' hsplit rfl).1

theorem throughout_of_starts {P : List (α × ε) → α × ε → Prop} {log log' : List (α × ε)}
    (hlog : Throughout P log) (hstarts : log' <+: log) : Throughout P log' := by
  obtain ⟨rest, rfl⟩ := hstarts
  rintro pre entry post rfl
  exact hlog pre entry (post ++ rest) (by simp)

/-- Entries that satisfy the property wherever they stand do not change it. -/
theorem throughout_append_tag {P : List (α × ε) → α × ε → Prop} {x : α} {events : List ε}
    (hP : ∀ e ∈ events, ∀ pre, P pre (x, e)) (log : List (α × ε)) :
    Throughout P (log ++ tag x events) ↔ Throughout P log := by
  induction events generalizing log with
  | nil => simp
  | cons e rest ih =>
    have hrest := ih (fun e' he' => hP e' (List.mem_cons_of_mem e he')) (log ++ [(x, e)])
    have he := hP e List.mem_cons_self log
    rw [tag_cons, List.append_cons, hrest, throughout_snoc]
    simp [he]

/-- The last event that the observer recognises, whoever caused it. -/
def lastOf (f : ε → Option β) (log : List (α × ε)) : Option β :=
  (log.filterMap fun entry => f entry.2).getLast?

@[simp] theorem lastOf_nil (f : ε → Option β) : lastOf f ([] : List (α × ε)) = none := rfl

theorem lastOf_append (f : ε → Option β) (left right : List (α × ε)) :
    lastOf f (left ++ right) = (lastOf f right).or (lastOf f left) := by
  simp only [lastOf, List.filterMap_append, List.getLast?_append]

theorem lastOf_tag (f : ε → Option β) (x : α) (events : List ε) :
    lastOf f (tag x events) = (events.filterMap f).getLast? := by
  simp [lastOf, tag, List.filterMap_map]

theorem lastOf_single (f : ε → Option β) (x : α) (e : ε) : lastOf f [(x, e)] = f e := by
  cases hfe : f e <;> simp [lastOf, hfe]

section Latest
variable [DecidableEq α]

/-- The events of `x` that the observer recognises, in order. -/
def ownView (f : ε → Option β) (x : α) (log : List (α × ε)) : List β :=
  log.filterMap fun entry => if entry.1 = x then f entry.2 else none

@[simp] theorem ownView_append (f : ε → Option β) (x : α) (left right : List (α × ε)) :
    ownView f x (left ++ right) = ownView f x left ++ ownView f x right :=
  List.filterMap_append

theorem ownView_tag_self (f : ε → Option β) (x : α) (events : List ε) :
    ownView f x (tag x events) = events.filterMap f := by
  simp [ownView, tag, List.filterMap_map]

theorem ownView_self (f : ε → Option β) (x : α) (e : ε) :
    ownView f x [(x, e)] = (f e).toList := by
  have hsingle : ownView f x [(x, e)] = [e].filterMap f := ownView_tag_self f x [e]
  rw [hsingle]
  cases hfe : f e <;> simp [hfe]

theorem ownView_other (f : ε → Option β) {x y : α} (hxy : y ≠ x) (events : List ε) :
    ownView f x (tag y events) = [] := by
  simp [ownView, tag, List.filterMap_map, hxy]

/-- The last event of `x` that the observer recognises. -/
def latest (f : ε → Option β) (x : α) (log : List (α × ε)) : Option β :=
  (ownView f x log).getLast?

@[simp] theorem latest_nil (f : ε → Option β) (x : α) :
    latest f x ([] : List (α × ε)) = none := rfl

theorem latest_append (f : ε → Option β) (x : α) (left right : List (α × ε)) :
    latest f x (left ++ right) = (latest f x right).or (latest f x left) := by
  simp only [latest, ownView_append, List.getLast?_append]

theorem latest_tag_self (f : ε → Option β) (x : α) (events : List ε) :
    latest f x (tag x events) = (events.filterMap f).getLast? := by
  rw [latest, ownView_tag_self]

theorem latest_tag_other (f : ε → Option β) {x y : α} (hxy : y ≠ x) (events : List ε) :
    latest f x (tag y events) = none := by
  rw [latest, ownView_other f hxy, List.getLast?_nil]

theorem latest_single (f : ε → Option β) (x y : α) (e : ε) :
    latest f x [(y, e)] = if y = x then f e else none := by
  by_cases hy : y = x
  · subst hy
    cases hfe : f e <;> simp [latest, ownView_self, hfe]
  · have hother : latest f x [(y, e)] = none := latest_tag_other f hy [e]
    rw [hother, if_neg hy]

end Latest
end EspWolfssl.TaggedLogs
