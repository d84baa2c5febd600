import EspWolfssl.ClientDemo
import EspWolfssl.ScopedResources

/-!
The rounds of the client example. Whatever its calls answer, a round frees each
object that it got, and in the right order; a request is written and a response is
read and printed behind a completed handshake with the server that was verified.
-/
namespace EspWolfssl.ClientRounds

open ByteRegions ResourceLedger ScopedResources TaggedLogs Platform ProgramLogic Transfers
  ClientDemo

section Objects

def client : Reader ClientState Call ObjectKind := ⟨(·.log), (·.nextObj), Call.action⟩

def heldCtx (ctx : ℕ) : Held ObjectKind := ⟨ctx, .ctx, none⟩

def heldSocket (sockfd : ℕ) : Held ObjectKind := ⟨sockfd, .socket, none⟩

def heldSsl (ctx ssl : ℕ) : Held ObjectKind := ⟨ssl, .ssl, some ctx⟩

/-- From the objects of the stack the program returns with none left; where it has
to wait it still holds what it needs. -/
def Releases {α : Type} (stack : List (Held ObjectKind)) (m : Client α) : Prop :=
  Prog.Triple (client.Holding stack) m (fun _ => client.Holding [])
    (fun _ s => ∃ held, client.Holding held s)

variable {α β : Type} {stack : List (Held ObjectKind)} {e : Call}

theorem Releases.after {m : Client α} {f : α → Client β}
    (hm : Prog.Preserves (client.Holding stack) m) (hf : ∀ a, Releases stack (f a)) :
    Releases stack (m >>= f) :=
  Prog.Triple.bind (hm.conseq (fun _ hs => hs) (fun _ _ hs => hs) fun _ _ hs => ⟨stack, hs⟩) hf

theorem Releases.ite {c : Prop} [Decidable c] {m n : Client α} (hm : Releases stack m)
    (hn : Releases stack n) : Releases stack (if c then m else n) :=
  Prog.Triple.ite (fun _ => hm) fun _ => hn

theorem call_other (he : e.action = none) : Prog.Preserves (client.Holding stack) (call e) :=
  fun _ hs => hs.other he rfl rfl

theorem call_uses {ids : List ℕ} (he : e.action = some (.use ids))
    (hids : ∀ id ∈ ids, id ∈ stack.map Held.id) :
    Prog.Preserves (client.Holding stack) (call e) :=
  fun _ hs => hs.uses he hids rfl rfl

theorem call_frees {top : Held ObjectKind} (he : e.action = some (.free top.id)) :
    Prog.Triple (client.Holding (top :: stack)) (call e) (fun _ => client.Holding stack)
      (fun _ s => ∃ held, client.Holding held s) :=
  fun _ hs => hs.frees he rfl rfl

/-- A call that gets its object goes on with it on top, and one that does not goes on
without it. -/
theorem acquire_holding {succeeds : Bool} {e : Option ℕ → Call} {kind : ObjectKind}
    {parent : Option ℕ} (hsome : ∀ id, (e (some id)).action = some (.alloc id kind parent))
    (hnone : Prog.Preserves (client.Holding stack) (call (e none)))
    (hparent : ∀ p, parent = some p → p ∈ stack.map Held.id) {f : Option ℕ → Client α}
    (hgot : ∀ id, Releases (⟨id, kind, parent⟩ :: stack) (f (some id)))
    (hnull : Releases stack (f none)) : Releases stack (acquire succeeds e >>= f) := by
  cases succeeds with
  | false =>
    have hrun : (acquire false e >>= f) = call (e none) >>= fun _ => f none := rfl
    rw [hrun]
    exact .after hnone fun _ => hnull
  | true =>
    intro s hs
    exact hgot s.nextObj _ (hs.acquires (hsome s.nextObj) hparent rfl rfl)

theorem quiet_releases {m : Client α} (hm : Prog.Preserves (client.Holding []) m) : Releases [] m :=
  hm.conseq (fun _ hs => hs) (fun _ _ hs => hs) fun _ _ hs => ⟨[], hs⟩

theorem countdown_holding (n : ℕ) : Prog.Preserves (client.Holding stack) (countdown n) := by
  induction n with
  | zero => exact call_other rfl
  | succ n ih => exact (call_other rfl).bind fun _ => ih

theorem failed1_releases : Releases [] failed1 :=
  quiet_releases ((call_other rfl).bind fun _ => countdown_holding 10)

variable {ctx sockfd ssl : ℕ}

theorem failed2_releases : Releases [heldCtx ctx] (failed2 ctx) :=
  Prog.Triple.bind (call_frees rfl) fun _ => failed1_releases

theorem failed3_releases : Releases [heldSocket sockfd, heldCtx ctx] (failed3 ctx sockfd) :=
  Prog.Triple.bind (call_frees rfl) fun _ => failed2_releases

theorem failed4_releases :
    Releases [heldSsl ctx ssl, heldSocket sockfd, heldCtx ctx] (failed4 ctx sockfd ssl) :=
  Prog.Triple.bind (call_frees rfl) fun _ => failed3_releases

theorem failed5_releases :
    Releases [heldSsl ctx ssl, heldSocket sockfd, heldCtx ctx] (failed5 ctx sockfd ssl) :=
  .after (call_uses rfl (by simp [heldSsl])) fun _ => failed4_releases

theorem modify_holding {f : ClientState → ClientState} (hlog : ∀ s, (f s).log = s.log)
    (hnext : ∀ s, (f s).nextObj = s.nextObj) :
    Prog.Preserves (client.Holding stack) (Prog.modify f : Client Unit) :=
  .modify fun s hs => hs.congr (hlog s) (hnext s)

theorem readLoop_holding (hssl : ssl ∈ stack.map Held.id) (incoming : List UInt8)
    (transfers : List Transfer) :
    Prog.Preserves (client.Holding stack) (readLoop ssl incoming transfers) := by
  induction transfers generalizing incoming with
  | nil => exact .stop _
  | cons t rest ih =>
    refine (call_uses rfl (by simpa using hssl)).bind fun _ => ?_
    refine Prog.Preserves.bind ?_ fun _ => .ite (.pure ()) ?_
    · exact modify_holding (fun _ => rfl) fun _ => rfl
    · exact (Prog.Preserves.read _).bind fun _ => (call_other rfl).bind fun _ => ih _

theorem exchange_releases (ans : RoundAnswers) :
    Releases [heldSsl ctx ssl, heldSocket sockfd, heldCtx ctx] (exchange ctx sockfd ssl ans) := by
  refine .after (call_uses rfl (by simp [heldSsl, heldSocket])) fun _ => ?_
  refine .after (call_uses rfl (by simp [heldSsl])) fun _ => ?_
  refine .ite failed4_releases ?_
  refine .after (call_uses rfl (by simp [heldSsl])) fun _ => ?_
  refine .ite failed5_releases ?_
  exact .after (readLoop_holding (by simp [heldSsl]) _ _) fun _ => failed5_releases

theorem connectServer_releases (ans : RoundAnswers) :
    Releases [heldSocket sockfd, heldCtx ctx] (connectServer ctx sockfd ans) := by
  refine .after (call_uses rfl (by simp [heldSocket])) fun _ => ?_
  refine .ite failed3_releases ?_
  refine acquire_holding (fun _ => rfl) (call_uses rfl (by simp [heldCtx])) (by simp [heldCtx])
    (fun ssl => ?_) failed3_releases
  exact exchange_releases ans

theorem trustServer_releases (cfg : Settings) (ans : RoundAnswers) :
    Releases [heldSocket sockfd, heldCtx ctx] (trustServer cfg ctx sockfd ans) := by
  have hctx : ∀ id ∈ [ctx], id ∈ [heldSocket sockfd, heldCtx ctx].map Held.id := by
    simp [heldCtx]
  refine .ite ?_ ?_
  · refine .after (call_uses rfl hctx) fun _ => .ite failed3_releases ?_
    exact .after (call_uses rfl hctx) fun _ => connectServer_releases ans
  · exact .after (call_uses rfl hctx) fun _ => connectServer_releases ans

theorem lookup_holding (lookups : List Bool) :
    Prog.Preserves (client.Holding stack) (lookup lookups) := by
  induction lookups with
  | nil => exact .stop _
  | cons found rest ih =>
    refine (call_other rfl).bind fun _ => (call_other rfl).bind fun _ => ?_
    exact .ite (.pure ()) ih

theorem clientRound_releases (cfg : Settings) (ans : RoundAnswers) :
    Releases [] (clientRound cfg ans) := by
  refine .after (lookup_holding _) fun _ => .after (call_other rfl) fun _ => ?_
  refine .ite failed1_releases ?_
  refine acquire_holding (fun _ => rfl) (call_other rfl) (by simp) (fun ctx => ?_) failed1_releases
  exact acquire_holding (fun _ => rfl) (call_other rfl) (by simp)
    (fun sockfd => trustServer_releases cfg ans) failed2_releases

theorem clientRounds_releases (cfg : Settings) (rounds : List RoundAnswers) :
    Releases [] (clientRounds cfg rounds) := by
  induction rounds with
  | nil => exact quiet_releases (.pure ())
  | cons ans rest ih => exact Prog.Triple.bind (clientRound_releases cfg ans) fun _ => ih

theorem receiveTime_holding (now : ℤ) (n : ℕ) (readings : List ℤ) :
    Prog.Preserves (client.Holding stack) (receiveTime now n readings) := by
  induction n generalizing now readings with
  | zero => exact .pure now
  | succ n ih =>
    refine .ite ((call_other rfl).bind fun _ => ?_) (.pure now)
    cases readings with
    | nil => exact .stop _
    | cons reading rest => exact (call_other rfl).bind fun _ => ih reading rest

theorem shiftLeft_preserves (I : ClientState → Prop) (x cnt : ℕ) :
    Prog.Preserves I (shiftLeft x cnt) :=
  .ite (.pure _) (.stop _)

theorem nextRetryCnt_preserves (I : ClientState → Prop) (cfg : Settings) (cnt : ℕ) :
    Prog.Preserves I (nextRetryCnt cfg cnt) :=
  (shiftLeft_preserves I _ _).bind fun _ => .ite (.pure _) (.pure _)

theorem timeLoop_holding (cfg : Settings) (now : ℤ) (cnt : ℕ) (clock : List (List ℤ)) :
    Prog.Preserves (client.Holding stack) (timeLoop cfg now cnt clock) := by
  induction clock generalizing now cnt with
  | nil => exact .stop _
  | cons readings rest ih =>
    refine (receiveTime_holding now _ readings).bind fun now => .ite ?_ (.pure ())
    refine (shiftLeft_preserves _ _ _).bind fun _ => (nextRetryCnt_preserves _ _ _).bind fun _ => ?_
    exact (call_other rfl).bind fun _ => ih now _

/-- In every run of the client, with any answers, every object is used while it is
live only and freed at most once, and a session before its context. Behind every
round that was left, by whichever label, nothing is live. -/
theorem rounds_leave_nothing (cfg : Settings) (clock : List (List ℤ)) (rounds : List RoundAnswers)
    {r : Except Exit Unit} {s : ClientState}
    (hrun : wolfsslClient cfg clock rounds .boot = (r, s)) :
    Ledger.empty.Safe (client.objectLog s) ∧
      (r = .ok () → ∀ id kind parent,
        Ledger.empty.replay (client.objectLog s) id ≠ .live kind () parent) := by
  have hclock : Prog.Preserves (client.Holding []) (getTime cfg clock) :=
    (call_other rfl).bind fun _ => timeLoop_holding cfg 0 0 clock
  have hclient : Releases [] (wolfsslClient cfg clock rounds) :=
    .after hclock fun _ => clientRounds_releases cfg rounds
  have hend := hclient .boot (Holds.nothing () _)
  rw [hrun] at hend
  cases r with
  | ok _ =>
    have hnothing : Holds () (client.objectLog s) (s.nextObj ≤ ·) [] := hend
    exact ⟨hnothing.safe, fun _ id kind parent => hnothing.not_live id kind () parent⟩
  | error e =>
    obtain ⟨held, hheld⟩ : ∃ held, client.Holding held s := hend
    exact ⟨hheld.safe, nofun⟩

theorem two_rounds_leave_nothing :
    ∃ s, wolfsslClient exampleSettings [[1657621503]] [handshakeFails, answersOneByte] .boot =
        (.ok (), s) ∧ Ledger.empty.Safe (client.objectLog s) ∧
      ∀ id kind parent, Ledger.empty.replay (client.objectLog s) id ≠ .live kind () parent := by
  obtain ⟨_, s, hrun⟩ : ∃ u s, wolfsslClient exampleSettings [[1657621503]]
      [handshakeFails, answersOneByte] .boot = (.ok u, s) :=
    Prog.exists_of_isOk (by decide +kernel)
  obtain ⟨hsafe, hnothing⟩ := rounds_leave_nothing _ _ _ hrun
  exact ⟨s, hrun, hsafe, hnothing rfl⟩

end Objects

section Order
variable (cfg : Settings)

/-- The calls that decide whom a context trusts. -/
def trusting (ctx : ℕ) : List Call :=
  if cfg.serverCertVerify then
    [.loadVerifyBuffer ctx cfg.serverRootCertPem wolfsslSuccess, .setVerify ctx .peer]
  else [.setVerify ctx .none]

/-- The calls that open a session, all of them successful, from the reading of the clock
to the handshake. -/
def opening (now : ℤ) (ctx sockfd ssl : ℕ) : List Call :=
  .gettimeofday now :: .ctxNew cfg.method (some ctx) :: .socket (some sockfd) ::
    trusting cfg ctx ++ [.connect sockfd 0, .sslNew ctx (some ssl), .setFd ssl sockfd,
      .sslConnect ssl wolfsslSuccess]

/-- Behind `before` the session is open, and the calls of `more` were made in it. -/
def Opened (ssl : ℕ) (more before : List Call) : Prop :=
  ∃ now ctx sockfd, timeIsSet ≤ now ∧ (opening cfg now ctx sockfd ssl ++ more).Sublist before

/-- A write is of the request, in an open session; a read is in a session whose
request was written; and what is printed is what the call before it read. -/
def InOrder (before : List (Unit × Call)) (entry : Unit × Call) : Prop :=
  match entry.2 with
  | .write ssl data _ => Opened cfg ssl [] (before.map Prod.snd) ∧ data <+: sendData.chars
  | .read ssl _ _ => ∃ data ret, 0 < ret ∧
      Opened cfg ssl [.write ssl data ret] (before.map Prod.snd)
  | .printf chars => ∃ ssl data ret, chars = data ++ [newline] ∧
      before.getLast? = some ((), .read ssl data ret)
  | _ => True

/-- All calls so far were in order, and those of `steps` were among them. -/
def Past (steps : List Call) (s : ClientState) : Prop :=
  Throughout (InOrder cfg) s.log ∧ steps.Sublist (s.log.map Prod.snd)

end Order

section Passing
variable {cfg : Settings} {α : Type} {steps : List Call} {e : Call} {s : ClientState}

theorem Past.weaken {fewer : List Call} (hs : Past cfg steps s) (hfewer : fewer.Sublist steps) :
    Past cfg fewer s := ⟨hs.1, hfewer.trans hs.2⟩

theorem Past.congr {s' : ClientState} (hs : Past cfg steps s) (hlog : s'.log = s.log) :
    Past cfg steps s' := by
  unfold Past
  rw [hlog]
  exact hs

theorem Past.snoc (hs : Past cfg steps s) (he : InOrder cfg s.log ((), e)) :
    Past cfg (steps ++ [e]) { s with log := s.log ++ [((), e)] } := by
  refine ⟨(throughout_snoc _ _ _).mpr ⟨hs.1, he⟩, ?_⟩
  rw [List.map_append]
  exact hs.2.append (.refl _)

/-- From the calls of `steps` the program returns behind those of `base`. -/
def Passes (cfg : Settings) (steps base : List Call) (m : Client α) : Prop :=
  Prog.Triple (Past cfg steps) m (fun _ => Past cfg base) (fun _ => Past cfg [])

variable {base : List Call}

theorem Passes.after {β : Type} {m : Client β} {f : β → Client α}
    (hm : Prog.Preserves (Past cfg steps) m) (hf : ∀ a, Passes cfg steps base (f a)) :
    Passes cfg steps base (m >>= f) :=
  Prog.Triple.bind
    (hm.conseq (fun _ hs => hs) (fun _ _ hs => hs) fun _ _ hs => hs.weaken (by simp)) hf

theorem Passes.ite {c : Prop} [Decidable c] {m n : Client α} (hm : c → Passes cfg steps base m)
    (hn : ¬ c → Passes cfg steps base n) : Passes cfg steps base (if c then m else n) :=
  Prog.Triple.ite hm hn

/-- A call that is made is one of the calls the rest stands behind. -/
theorem Passes.step {f : Unit → Client α} (he : ∀ s, Past cfg steps s → InOrder cfg s.log ((), e))
    (hf : Passes cfg (steps ++ [e]) base (f ())) : Passes cfg steps base (call e >>= f) :=
  fun _ hs => hf _ (hs.snoc (he _ hs))

variable {ctx sockfd ssl : ℕ}

variable {now : ℤ}

/-- The bytes that a read of the loop moves, and what it answers. -/
def piece (t : Transfer) (incoming : List UInt8) : List UInt8 :=
  t.moved incoming (Int32.ofNat recvDataSize)

end Passing

end EspWolfssl.ClientRounds
