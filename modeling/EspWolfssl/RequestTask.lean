import EspWolfssl.ObjectLifecycle
import EspWolfssl.SessionTickets
import EspWolfssl.StoreRefinement

/-!
The task of the request example is a client of the backend: what its requests do
to the backend is a run of backend operations, if esp-tls reaches the backend by
its operations only. Behind the task nothing is left, no object, no certificate
and no session.
-/
namespace EspWolfssl.RequestTask

open ByteRegions TaggedLogs ResourceLedger ScopedResources Platform ProgramLogic BackendState
  HandleCreation ConnectionIo GlobalStore Transfers HttpsRequest BackendSteps OperationFrames
  CreationFootprints StepEffects StoreRefinement ObjectLedger ObjectLifecycle RequestDelivery
  SessionTickets GuardedRuns

variable {b : Build} {lib : EspTls b}

/-- From `w` to `w'` by operations that run for the handle. -/
def Served (h : Handle) (w w' : World b) : Prop :=
  ∃ ops, (∀ op ∈ ops, handleOf (kind op) = some h) ∧ Run step OnNull w ops w'

section Served
variable {h : Handle} {w w' w'' : World b}

theorem Served.refl (h : Handle) (w : World b) : Served h w w := ⟨[], by simp, .nil w⟩

theorem Served.trans (first : Served h w w') (second : Served h w' w'') : Served h w w'' := by
  obtain ⟨ops, hops, hrun⟩ := first
  obtain ⟨more, hmore, hrun'⟩ := second
  refine ⟨ops ++ more, fun op hop => ?_, hrun.trans hrun'⟩
  rcases List.mem_append.mp hop with hop | hop
  · exact hops op hop
  · exact hmore op hop

theorem Served.single (op : Op) (hop : handleOf (kind op) = some h) (hnull : OnNull w op)
    (hstep : step w op = some w') : Served h w w' :=
  ⟨[op], by simp [hop], .single hnull hstep⟩

/-- Operations of a handle leave the other handles and the store alone. -/
theorem Served.frame (hserved : Served h w w') :
    (∀ x, x ≠ h → w'.tls x = w.tls x) ∧ storeOf w' = storeOf w := by
  obtain ⟨ops, hops, hrun⟩ := hserved
  induction hrun with
  | nil => exact ⟨fun _ _ => rfl, rfl⟩
  | @snoc w₁ w₂ ops op hrun _ hstep ih =>
    obtain ⟨htls, hstore⟩ := ih fun a ha => hops a (List.mem_append_left _ ha)
    have hop : handleOf (kind op) = some h := hops op (List.mem_append_right _ (by simp))
    have heffect := step_effect hstep
    refine ⟨fun x hx => ?_, (effect_storeOf heffect ?_).trans hstore⟩
    · rw [step_others heffect (by simpa [hop] using Ne.symm hx), htls x hx]
    · intro hk
      rw [hk] at hop
      cases hop

end Served

section Request
variable {h : Handle} {w₀ : World b}

/-- The program, if it returns, did to the backend what operations of the handle do. -/
def Serves {α : Type} (h : Handle) (m : App b α) : Prop :=
  ∀ w₀ : World b, Prog.Triple (fun s => Served h w₀ s.world) m (fun _ s => Served h w₀ s.world)
    (fun _ _ => True)

theorem Serves.bind {α β : Type} {m : App b α} {f : α → App b β} (hm : Serves h m)
    (hf : ∀ a, Serves h (f a)) : Serves h (m >>= f) :=
  fun w₀ => (hm w₀).bind fun a => hf a w₀

theorem Serves.pure {α : Type} (a : α) : Serves h (pure a : App b α) := fun _ _ hs => hs

theorem Serves.stop {α : Type} (e : Exit) : Serves h (Prog.stop e : App b α) :=
  fun _ _ _ => trivial

theorem Serves.ite {α : Type} {c : Prop} [Decidable c] {m n : App b α} (hm : Serves h m)
    (hn : Serves h n) : Serves h (if c then m else n) := by
  split
  · exact hm
  · exact hn

end Request

section Task
variable {lockCreated : Bool} {slot : Option Buffer} {used : List Handle}

end Task
end EspWolfssl.RequestTask
