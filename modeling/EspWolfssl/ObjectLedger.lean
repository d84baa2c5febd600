import EspWolfssl.CreationOutcomes

/-!
The ledger of the objects that the backend allocates. In a tidy state the live
objects are those that the handles name: the context in `priv_ctx`, and the
session object in `priv_ssl`, which belongs to that context.
-/
namespace EspWolfssl.ObjectLedger

open TaggedLogs ResourceLedger Platform BackendState HandleCreation OperationFrames
  CreationOutcomes

variable {b : Build}

/-- What the calls so far did to objects. -/
def actions (w : World b) : List (Handle × Action ObjKind) := view Event.action w.log

/-- The ledger that the calls so far lead to. -/
def ledgerOf (w : World b) : Ledger Handle ObjKind := Ledger.empty.replay (actions w)

/-- A handle names an object of a kind that belongs to a parent. -/
def Named (w : World b) (x : Handle) (id : ℕ) : ObjKind → Option ℕ → Prop
  | .ctx, parent => parent = none ∧ (w.tls x).privCtx = some id
  | .ssl, parent => parent = (w.tls x).privCtx ∧ (w.tls x).privSsl = some id
  | .hostString, _ | .certBuffer, _ => False

/-- The calls were safe, and exactly the named objects are live. -/
structure Tidy (w : World b) : Prop where
  safe : Ledger.empty.Safe (actions w)
  unborn : ∀ id, w.nextObj ≤ id → ledgerOf w id = .unborn
  live_iff : ∀ x id kind parent,
    ledgerOf w id = .live kind x parent ↔ Named w x id kind parent
  ctx_of_ssl : ∀ x ssl, (w.tls x).privSsl = some ssl → ∃ ctx, (w.tls x).privCtx = some ctx

theorem named_congr {w w' : World b} {x : Handle} (hobj : objects w' x = objects w x)
    (id : ℕ) (kind : ObjKind) (parent : Option ℕ) :
    Named w' x id kind parent ↔ Named w x id kind parent := by
  obtain ⟨hctx, hssl⟩ := Prod.mk.inj hobj
  cases kind <;> simp only [Named, hctx, hssl]

theorem objects_updateTls_of_ne {w : World b} {h x : Handle} (hx : x ≠ h) (f : Tls → Tls) :
    objects (w.updateTls h f) x = objects w x := by
  simp [objects, hx]

/-- A handle names at most one object of a kind. -/
theorem named_id {w : World b} {x : Handle} {id id' : ℕ} {kind : ObjKind}
    {parent parent' : Option ℕ} (hid : Named w x id kind parent)
    (hid' : Named w x id' kind parent') : id = id' := by
  cases kind with
  | ctx => exact Option.some.inj (hid.2.symm.trans hid'.2)
  | ssl => exact Option.some.inj (hid.2.symm.trans hid'.2)
  | hostString => exact hid.elim
  | certBuffer => exact hid.elim

theorem boot_tidy (b : Build) (lockCreated : Bool) : Tidy (World.boot b lockCreated) where
  safe := trivial
  unborn := fun _ _ => rfl
  live_iff := by
    intro x id kind parent
    have hunborn : ledgerOf (World.boot b lockCreated) id = .unborn := rfl
    have hno : ¬ Named (World.boot b lockCreated) x id kind parent := by
      cases kind <;> simp [Named, World.boot, Tls.fresh]
    simp [hunborn, hno]
  ctx_of_ssl := by
    intro x ssl hssl
    cases hssl

section Appending
variable {h : Handle} {w w' : World b} {events : List Event}

theorem actions_append (hlog : w'.log = w.log ++ tag h events) :
    actions w' = actions w ++ tag h (events.filterMap Event.action) := by
  rw [actions, hlog, view_append, view_tag]
  rfl

theorem ledgerOf_append (hlog : w'.log = w.log ++ tag h events) :
    ledgerOf w' = (ledgerOf w).replay (tag h (events.filterMap Event.action)) := by
  rw [ledgerOf, actions_append hlog, Ledger.replay_append]
  rfl

theorem safe_of_append (hw : Tidy w) (hlog : w'.log = w.log ++ tag h events)
    (hsafe : (ledgerOf w).Safe (tag h (events.filterMap Event.action))) :
    Ledger.empty.Safe (actions w') := by
  rw [actions_append hlog, Ledger.safe_append]
  exact ⟨hw.safe, hsafe⟩

end Appending

namespace Tidy

variable {h : Handle} {w w' : World b} {events : List Event}

theorem owned_ctx (hw : Tidy w) {id : ℕ} (hctx : (w.tls h).privCtx = some id) :
    (ledgerOf w).Owned h id :=
  ⟨.ctx, none, (hw.live_iff h id .ctx none).mpr ⟨rfl, hctx⟩⟩

theorem owned_ssl (hw : Tidy w) {id : ℕ} (hssl : (w.tls h).privSsl = some id) :
    (ledgerOf w).Owned h id :=
  ⟨.ssl, (w.tls h).privCtx, (hw.live_iff h id .ssl _).mpr ⟨rfl, hssl⟩⟩

/-- An object has one name. -/
theorem named_unique (hw : Tidy w) {x y : Handle} {id : ℕ} {kind kind' : ObjKind}
    {parent parent' : Option ℕ} (hx : Named w x id kind parent)
    (hy : Named w y id kind' parent') : x = y ∧ kind = kind' ∧ parent = parent' := by
  have hlive := (hw.live_iff x id kind parent).mpr hx
  have hlive' := (hw.live_iff y id kind' parent').mpr hy
  rw [hlive] at hlive'
  injection hlive' with hkind howner hparent
  exact ⟨howner, hkind, hparent⟩

theorem not_named_fresh (hw : Tidy w) {x : Handle} {kind : ObjKind} {parent : Option ℕ} :
    ¬ Named w x w.nextObj kind parent := by
  intro hnamed
  have hlive := (hw.live_iff x w.nextObj kind parent).mpr hnamed
  rw [hw.unborn w.nextObj (Nat.le_refl _)] at hlive
  cases hlive

/-- An object has children only if it is the context of a handle that names a
session object. -/
theorem childless (hw : Tidy w) {id : ℕ}
    (hid : ∀ x, (w.tls x).privCtx = some id → (w.tls x).privSsl = none) :
    (ledgerOf w).Childless id := by
  intro child kind y hchild
  have hnamed := (hw.live_iff y child kind (some id)).mp hchild
  cases kind with
  | ctx => cases hnamed.1
  | ssl =>
    have hnone := hid y hnamed.1.symm
    cases hnone.symm.trans hnamed.2
  | hostString => exact hnamed
  | certBuffer => exact hnamed

theorem childless_fresh (hw : Tidy w) : (ledgerOf w).Childless w.nextObj := by
  apply hw.childless
  intro x hctx
  have hnamed : Named w x w.nextObj .ctx none := ⟨rfl, hctx⟩
  exact (hw.not_named_fresh hnamed).elim

/-- Uses of owned objects keep a state tidy. -/
theorem uses (hw : Tidy w) (h : Handle) (events : List Event) (uses : List (List ℕ))
    (hlog : w'.log = w.log ++ tag h events)
    (hacts : events.filterMap Event.action = uses.map .use)
    (howned : ∀ ids ∈ uses, ∀ id ∈ ids, (ledgerOf w).Owned h id)
    (hobj : ∀ x, objects w' x = objects w x) (hnext : w'.nextObj = w.nextObj) : Tidy w' := by
  have hledger : ledgerOf w' = ledgerOf w := by
    rw [ledgerOf_append hlog, hacts, Ledger.replay_uses]
  refine ⟨safe_of_append hw hlog ?_, ?_, ?_, ?_⟩
  · rw [hacts, Ledger.safe_uses]
    exact howned
  · intro id hid
    rw [hledger]
    exact hw.unborn id (hnext ▸ hid)
  · intro x id kind parent
    rw [hledger, named_congr (hobj x)]
    exact hw.live_iff x id kind parent
  · intro x ssl hssl
    obtain ⟨hctx', hssl'⟩ := Prod.mk.inj (hobj x)
    rw [hctx']
    exact hw.ctx_of_ssl x ssl (hssl' ▸ hssl)

/-- Changes to other fields keep a state tidy. -/
theorem congr (hw : Tidy w) (hlog : w'.log = w.log) (hobj : ∀ x, objects w' x = objects w x)
    (hnext : w'.nextObj = w.nextObj) : Tidy w' :=
  hw.uses 0 [] [] (by simpa using hlog) rfl (by simp) hobj hnext

/-- A buffer that is allocated, used and freed again keeps a state tidy. -/
theorem temporary (hw : Tidy w) (h : Handle) (kind : ObjKind) (events : List Event)
    (uses : List (List ℕ)) (hlog : w'.log = w.log ++ tag h events)
    (hacts : events.filterMap Event.action =
      .alloc w.nextObj kind none :: uses.map .use ++ [.free w.nextObj])
    (howned : ∀ ids ∈ uses, ∀ id ∈ ids, id = w.nextObj ∨ (ledgerOf w).Owned h id)
    (hobj : ∀ x, objects w' x = objects w x) (hnext : w'.nextObj = w.nextObj + 1) :
    Tidy w' := by
  have hfresh := hw.unborn w.nextObj (Nat.le_refl _)
  obtain ⟨hsafe, hreplay⟩ :=
    Ledger.temporary kind hfresh hw.childless_fresh howned
  have hledger : ledgerOf w' = (ledgerOf w).set w.nextObj .freed := by
    rw [ledgerOf_append hlog, hacts, hreplay]
  refine ⟨safe_of_append hw hlog (hacts ▸ hsafe), ?_, ?_, ?_⟩
  · intro id hid
    have hne : id ≠ w.nextObj := by omega
    rw [hledger, Ledger.set_of_ne _ hne]
    exact hw.unborn id (by omega)
  · intro x id kind' parent
    rw [hledger, named_congr (hobj x)]
    by_cases hid : id = w.nextObj
    · subst hid
      simp [hw.not_named_fresh]
    · rw [Ledger.set_of_ne _ hid]
      exact hw.live_iff x id kind' parent
  · intro x ssl hssl
    obtain ⟨hctx', hssl'⟩ := Prod.mk.inj (hobj x)
    rw [hctx']
    exact hw.ctx_of_ssl x ssl (hssl' ▸ hssl)

theorem ctx_of_ssl_of_others (hw : Tidy w)
    (hothers : ∀ x, x ≠ h → objects w' x = objects w x)
    (hself : ∀ ssl, (w'.tls h).privSsl = some ssl → ∃ ctx, (w'.tls h).privCtx = some ctx)
    (x : Handle) (ssl : ℕ) (hssl : (w'.tls x).privSsl = some ssl) :
    ∃ ctx, (w'.tls x).privCtx = some ctx := by
  by_cases hx : x = h
  · subst hx
    exact hself ssl hssl
  · obtain ⟨hctx', hssl'⟩ := Prod.mk.inj (hothers x hx)
    rw [hctx']
    exact hw.ctx_of_ssl x ssl (hssl' ▸ hssl)

/-- An allocation whose result its handle comes to name keeps a state tidy. -/
theorem alloc (hw : Tidy w) (h : Handle) (events : List Event) {kind : ObjKind}
    {parent : Option ℕ} (hlog : w'.log = w.log ++ tag h events)
    (hacts : events.filterMap Event.action = [.alloc w.nextObj kind parent])
    (hparent : ∀ p, parent = some p → (ledgerOf w).Owned h p)
    (hothers : ∀ x, x ≠ h → objects w' x = objects w x)
    (hnamed : ∀ id kind' parent', Named w' h id kind' parent' ↔
      (id = w.nextObj ∧ kind' = kind ∧ parent' = parent) ∨ Named w h id kind' parent')
    (hself : ∀ ssl, (w'.tls h).privSsl = some ssl → ∃ ctx, (w'.tls h).privCtx = some ctx)
    (hnext : w'.nextObj = w.nextObj + 1) : Tidy w' := by
  have hledger : ledgerOf w' = (ledgerOf w).set w.nextObj (.live kind h parent) := by
    rw [ledgerOf_append hlog, hacts]
    rfl
  refine ⟨safe_of_append hw hlog ?_, ?_, ?_, hw.ctx_of_ssl_of_others hothers hself⟩
  · rw [hacts]
    exact ⟨⟨hw.unborn _ (Nat.le_refl _), hparent⟩, trivial⟩
  · intro id hid
    have hne : id ≠ w.nextObj := by omega
    rw [hledger, Ledger.set_of_ne _ hne]
    exact hw.unborn id (by omega)
  · intro x id kind' parent'
    rw [hledger]
    by_cases hid : id = w.nextObj
    · subst hid
      have hno : ¬ Named w x w.nextObj kind' parent' := hw.not_named_fresh
      rw [Ledger.set_self, Cell.live.injEq]
      by_cases hx : x = h
      · subst hx
        simp [hnamed, hno, eq_comm]
      · simp [named_congr (hothers x hx), hno, Ne.symm hx]
    · rw [Ledger.set_of_ne _ hid, hw.live_iff x id kind' parent']
      by_cases hx : x = h
      · subst hx
        simp [hnamed, hid]
      · rw [named_congr (hothers x hx)]

/-- Freeing the object of one kind, which its handle then no longer names, keeps
a state tidy. -/
theorem free (hw : Tidy w) (events : List Event) (uses : List (List ℕ)) {id : ℕ}
    {kind : ObjKind} {parent : Option ℕ} (hname : Named w h id kind parent)
    (hlog : w'.log = w.log ++ tag h events)
    (hacts : events.filterMap Event.action = uses.map .use ++ [.free id])
    (howned : ∀ ids ∈ uses, ∀ other ∈ ids, (ledgerOf w).Owned h other)
    (hchildless : (ledgerOf w).Childless id)
    (hothers : ∀ x, x ≠ h → objects w' x = objects w x)
    (hnamed : ∀ other kind' parent', Named w' h other kind' parent' ↔
      kind' ≠ kind ∧ Named w h other kind' parent')
    (hself : ∀ ssl, (w'.tls h).privSsl = some ssl → ∃ ctx, (w'.tls h).privCtx = some ctx)
    (hnext : w'.nextObj = w.nextObj) : Tidy w' := by
  have hlive := (hw.live_iff h id kind parent).mpr hname
  have hledger : ledgerOf w' = (ledgerOf w).set id .freed := by
    rw [ledgerOf_append hlog, hacts, tag_append, Ledger.replay_append, Ledger.replay_uses]
    rfl
  have hwhole : ∀ x other kind' parent', Named w' x other kind' parent' ↔
      ¬ (x = h ∧ kind' = kind) ∧ Named w x other kind' parent' := by
    intro x other kind' parent'
    by_cases hx : x = h
    · subst hx
      simp [hnamed]
    · simp [named_congr (hothers x hx), hx]
  refine ⟨safe_of_append hw hlog ?_, ?_, ?_, hw.ctx_of_ssl_of_others hothers hself⟩
  · rw [hacts, tag_append, Ledger.safe_append, Ledger.safe_uses, Ledger.replay_uses]
    exact ⟨howned, ⟨⟨kind, parent, hlive⟩, hchildless⟩, trivial⟩
  · intro other hother
    have hunborn := hw.unborn other (hnext ▸ hother)
    have hne : other ≠ id := by
      rintro rfl
      cases hlive.symm.trans hunborn
    rw [hledger, Ledger.set_of_ne _ hne, hunborn]
  · intro x other kind' parent'
    rw [hledger, hwhole]
    by_cases hid : other = id
    · subst hid
      have hgone : Named w x other kind' parent' → x = h ∧ kind' = kind := by
        intro hother
        obtain ⟨hx, hkind, _⟩ := hw.named_unique hother hname
        exact ⟨hx, hkind⟩
      refine iff_of_false (by simp) ?_
      rintro ⟨hkept, hother⟩
      exact hkept (hgone hother)
    · have hkept : Named w x other kind' parent' → ¬ (x = h ∧ kind' = kind) := by
        rintro hother ⟨rfl, rfl⟩
        exact hid (named_id hother hname)
      rw [Ledger.set_of_ne _ hid, hw.live_iff x other kind' parent']
      exact ⟨fun hother => ⟨hkept hother, hother⟩, And.right⟩

end Tidy

/-- The call touches none but the two objects of its handle, and frees none. -/
def UsesOwn (ctx ssl : Option ℕ) (e : Event) : Prop :=
  ∀ a, e.action = some a → ∃ ids, a = .use ids ∧ ∀ id ∈ ids, ctx = some id ∨ ssl = some id

theorem usesOwn_of_none {ctx ssl : Option ℕ} {e : Event} (he : e.action = none) :
    UsesOwn ctx ssl e := by
  intro a ha
  rw [he] at ha
  cases ha

theorem usesOwn_of_ctx {ctx ssl : Option ℕ} {e : Event}
    (he : e.action = some (.use ctx.toList)) : UsesOwn ctx ssl e := by
  intro a ha
  rw [he] at ha
  obtain rfl := Option.some.inj ha
  exact ⟨_, rfl, fun id hid => Or.inl (Option.mem_toList.mp hid)⟩

theorem usesOwn_of_ssl {ctx ssl : Option ℕ} {e : Event}
    (he : e.action = some (.use ssl.toList)) : UsesOwn ctx ssl e := by
  intro a ha
  rw [he] at ha
  obtain rfl := Option.some.inj ha
  exact ⟨_, rfl, fun id hid => Or.inr (Option.mem_toList.mp hid)⟩

/-- A tidy state whose handle `h` holds this context and this session object. -/
structure At (h : Handle) (ctx ssl : Option ℕ) (w : World b) : Prop where
  tidy : Tidy w
  objects : objects w h = (ctx, ssl)

namespace At

variable {h : Handle} {ctx ssl : Option ℕ} {w w' : World b}

theorem privCtx (hw : At h ctx ssl w) : (w.tls h).privCtx = ctx := congrArg Prod.fst hw.objects

theorem privSsl (hw : At h ctx ssl w) : (w.tls h).privSsl = ssl := congrArg Prod.snd hw.objects

theorem congr (hw : At h ctx ssl w) (hlog : w'.log = w.log)
    (hobj : ∀ x, OperationFrames.objects w' x = OperationFrames.objects w x)
    (hnext : w'.nextObj = w.nextObj) : At h ctx ssl w' :=
  ⟨hw.tidy.congr hlog hobj hnext, (hobj h).trans hw.objects⟩

theorem owned (hw : At h ctx ssl w) {id : ℕ} (hid : ctx = some id ∨ ssl = some id) :
    (ledgerOf w).Owned h id := by
  rcases hid with hid | hid
  · exact hw.tidy.owned_ctx (hw.privCtx.trans hid)
  · exact hw.tidy.owned_ssl (hw.privSsl.trans hid)

theorem record (hw : At h ctx ssl w) {e : Event} (he : UsesOwn ctx ssl e) :
    At h ctx ssl (w.record h e) := by
  have hlog : (w.record h e).log = w.log ++ tag h [e] := rfl
  refine ⟨?_, hw.objects⟩
  cases hact : e.action with
  | none => exact hw.tidy.uses h [e] [] hlog (by simp [hact]) (by simp) (fun _ => rfl) rfl
  | some a =>
    obtain ⟨ids, rfl, hids⟩ := he a hact
    refine hw.tidy.uses h [e] [ids] hlog (by simp [hact]) ?_ (fun _ => rfl) rfl
    intro ids' hids' id hid
    obtain rfl := List.mem_singleton.mp hids'
    exact hw.owned (hids id hid)

theorem temporary (hw : At h ctx ssl w) (kind : ObjKind) (events : List Event)
    (uses : List (List ℕ)) (hlog : w'.log = w.log ++ tag h events)
    (hacts : events.filterMap Event.action =
      .alloc w.nextObj kind none :: uses.map .use ++ [.free w.nextObj])
    (huses : ∀ ids ∈ uses, ∀ id ∈ ids, id = w.nextObj ∨ ctx = some id ∨ ssl = some id)
    (hobj : ∀ x, OperationFrames.objects w' x = OperationFrames.objects w x)
    (hnext : w'.nextObj = w.nextObj + 1) : At h ctx ssl w' := by
  refine ⟨hw.tidy.temporary h kind events uses hlog hacts ?_ hobj hnext,
    (hobj h).trans hw.objects⟩
  intro ids hids id hid
  exact (huses ids hids id hid).imp_right hw.owned

theorem updateTls (hw : At h ctx ssl w) {f : Tls → Tls}
    (hf : (f (w.tls h)).privCtx = ctx ∧ (f (w.tls h)).privSsl = ssl) :
    At h ctx ssl (w.updateTls h f) := by
  refine hw.congr rfl ?_ rfl
  intro x
  by_cases hx : x = h
  · subst hx
    simp [OperationFrames.objects, hf, hw.privCtx, hw.privSsl]
  · exact objects_updateTls_of_ne hx f

end At

section Changes
variable {h : Handle} {w : World b}

theorem newCtx_at (hw : At h none none w) :
    At h (some w.nextObj) none (newCtx h true w).2 := by
  simp only [newCtx_true]
  have hctx := hw.privCtx
  have hssl := hw.privSsl
  refine ⟨?_, by simp [objects, hssl]⟩
  refine hw.tidy.alloc h [.ctxNew (some w.nextObj)] rfl rfl (by simp)
    (fun x hx => objects_updateTls_of_ne hx _) ?_ ?_ rfl
  · intro id kind parent
    cases kind <;> simp [Named, hctx, hssl, eq_comm, and_comm]
  · intro ssl _
    exact ⟨w.nextObj, by simp⟩

theorem newCtx_failed (hw : At h none none w) : At h none none (newCtx h false w).2 := by
  have hrecord := hw.record (e := .ctxNew none) (usesOwn_of_none rfl)
  simp only [newCtx_false]
  exact hrecord.updateTls ⟨rfl, hw.privSsl⟩

theorem newSsl_at {ctx : ℕ} (hw : At h (some ctx) none w) :
    At h (some ctx) (some w.nextObj) (newSsl h true w).2 := by
  simp only [newSsl_true]
  have hctx := hw.privCtx
  have hssl := hw.privSsl
  refine ⟨?_, by simp [objects, hctx]⟩
  refine hw.tidy.alloc h [.sslNew (some ctx) (some w.nextObj)] (by simp [hctx]) rfl
    (fun p hp => hw.owned (Or.inl hp)) (fun x hx => objects_updateTls_of_ne hx _) ?_ ?_ rfl
  · intro id kind parent
    cases kind <;> simp [Named, hctx, hssl, eq_comm, and_comm]
  · intro ssl _
    exact ⟨ctx, by simpa using hctx⟩

theorem newSsl_failed {ctx : ℕ} (hw : At h (some ctx) none w) :
    At h (some ctx) none (newSsl h false w).2 := by
  have huse : UsesOwn (some ctx) none (.sslNew (w.tls h).privCtx none) :=
    usesOwn_of_ctx (by rw [hw.privCtx]; rfl)
  have hrecord := hw.record huse
  simp only [newSsl_false]
  exact hrecord.updateTls ⟨hw.privCtx, rfl⟩

theorem freeSsl_at {ctx ssl : Option ℕ} (hw : At h ctx ssl w) : At h ctx none (freeSsl h w) := by
  unfold freeSsl
  cases hssl : (w.tls h).privSsl with
  | none =>
    obtain rfl := hw.privSsl.symm.trans hssl
    exact hw
  | some id =>
    have hname : Named w h id .ssl (w.tls h).privCtx := ⟨rfl, hssl⟩
    have howned : ∀ ids ∈ [[id]], ∀ other ∈ ids, (ledgerOf w).Owned h other := by
      simpa using hw.tidy.owned_ssl hssl
    have hchildless : (ledgerOf w).Childless id := by
      apply hw.tidy.childless
      intro x hctx
      have hother : Named w x id .ctx none := ⟨rfl, hctx⟩
      cases (hw.tidy.named_unique hname hother).2.1
    refine ⟨?_, by simp [objects, hw.privCtx]⟩
    refine hw.tidy.free [.shutdown id, .sslFree id] [[id]] hname (by simp) rfl howned hchildless
      (fun x hx => objects_updateTls_of_ne hx _) ?_ ?_ rfl
    · intro other kind parent
      cases kind <;> simp [Named]
    · intro ssl' hnone
      simp at hnone

/-- The context goes last: the session object that belongs to it is gone. -/
theorem freeCtx_at {ctx : Option ℕ} (hw : At h ctx none w) : At h none none (freeCtx h w) := by
  unfold freeCtx
  cases hctx : (w.tls h).privCtx with
  | none =>
    obtain rfl := hw.privCtx.symm.trans hctx
    exact hw
  | some id =>
    have hname : Named w h id .ctx none := ⟨rfl, hctx⟩
    have hchildless : (ledgerOf w).Childless id := by
      apply hw.tidy.childless
      intro x hother
      have hname' : Named w x id .ctx none := ⟨rfl, hother⟩
      obtain ⟨rfl, _⟩ := hw.tidy.named_unique hname hname'
      exact hw.privSsl
    refine ⟨?_, by simp [objects, hw.privSsl]⟩
    refine hw.tidy.free [.ctxFree id] [] hname (by simp) rfl (by simp) hchildless
      (fun x hx => objects_updateTls_of_ne hx _) ?_ ?_ rfl
    · intro other kind parent
      cases kind <;> simp [Named, hw.privSsl]
    · intro ssl' hsome
      simp [hw.privSsl] at hsome

end Changes

end EspWolfssl.ObjectLedger
