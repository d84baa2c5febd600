import EspWolfssl.IoOutcomes
import EspWolfssl.ObjectLifecycle
import EspWolfssl.OperationReplies
import EspWolfssl.SetupInvariants
import EspWolfssl.TwinRuns

/-!
What a handle tells its owner is what its own operations came to. `conn_state`
follows the replies of its handshakes and server sessions, and `error_handle`
lists the failures of its handshakes, reads and writes in their order, whatever
the other handles did, and however often the handle was set up and deleted.
-/
namespace EspWolfssl.ReportHistory

open ByteRegions Platform ProgramLogic BackendState CertificateLoading PskClient HandleCreation
  ConnectionIo GlobalStore BackendSteps CreationFootprints StepEffects ObjectLifecycle
  IoOutcomes OperationReplies SetupInvariants TwinRuns Noninterference GuardedRuns

variable {b : Build}

section Setup
variable {h : Handle}

theorem reports_settled (h : Handle) (c : ConnState × List Capture × Bool) :
    Settled h (fun w : World b => reports (w.tls h) = c) where
  congr := by
    intro w w' hw htls _
    rw [htls, hw]
  record := fun _ hw => hw
  privCtx := fun _ hw => by simpa [reports] using hw
  privSsl := fun _ hw => by simpa [reports] using hw

theorem cleanup_reports (h : Handle) (w : World b) :
    reports ((espWolfsslCleanup h w).tls h) = reports (w.tls h) :=
  (reports_settled h _).cleanup rfl

theorem createSslHandle_steady (h : Handle) (hostname : List UInt8) (cfg : Cfg)
    (ans : CreateAnswers) :
    Prog.Keeps (fun w => reports (w.tls h))
      (espWolfsslCreateSslHandle h hostname cfg ans : Backend b EspErr) :=
  fun c => (reports_settled h c).createSslHandle hostname cfg ans

end Setup

/-- The state that an operation tells its handle by what it returns. -/
def told : Op × Reply → Option ConnState
  | (.handshake _ _ _ _, .number r) =>
      if r = 1 then some .done else if r = -1 then some .fail else none
  | (.serverSessionCreate (some _) (some _) _ _ _, .number r) =>
      if r = -1 then some .fail else none
  | _ => none

/-- The failures that an operation lists, by the answer of its call. -/
def captured (c : Codes) : Op → List Capture
  | .handshake _ cfg ans flags =>
      if ans.ret = wolfsslSuccess ∨ Retry c ans.err then []
      else .customStack (-ans.err) :: .esp .wolfsslSslHandshakeFailed :: flagCaptures cfg flags
  | .read _ _ ans =>
      if 0 ≤ ans.ret ∨ ans.err = c.zeroReturn ∨ Retry c ans.err then []
      else [.customStack (-ans.err)]
  | .write _ _ ans =>
      if 0 < ans.ret ∨ Retry c ans.err then [] else [.customStack (-ans.err)]
  | _ => []

/-- The handle after an operation that told it `state` and listed `entries`. -/
def Reported (t t' : Tls) (state : Option ConnState) (entries : List Capture) : Prop :=
  t'.connState = state.getD t.connState ∧ t'.errorHandle = t.errorHandle ++ entries

section Steps
variable {h : Handle} {w w' : World b} {reply : Reply}

theorem reported_of_steady {t t' : Tls} (ht : reports t' = reports t) : Reported t t' none [] := by
  simp only [reports, Prod.mk.injEq] at ht
  exact ⟨ht.1, by rw [ht.2.1, List.append_nil]⟩

/-- An operation that comes to one result reports through the handle it leaves. -/
theorem answering_comes {m : Backend b Int32} {r : Int32} {t : Tls} (hcomes : Comes h m w r t)
    (hreact : answering m .number (fun _ => id) w = some (reply, w')) :
    reply = .number r ∧ w'.tls h = t := by
  obtain ⟨w₁, hrun, htls⟩ := hcomes
  obtain ⟨a, w₂, hrun', rfl, rfl⟩ := answering_eq_some.mp hreact
  rw [hrun] at hrun'
  cases hrun'
  exact ⟨rfl, htls⟩

theorem handshake_reported {cfg : ClientCfg} {ans : CallAnswer} {flags : Int32}
    (hreact : react w (.handshake h cfg ans flags) = some (reply, w')) :
    Reported (w.tls h) (w'.tls h) (told (.handshake h cfg ans flags, reply))
      (captured b.codes (.handshake h cfg ans flags)) := by
  by_cases hret : ans.ret = wolfsslSuccess
  · obtain ⟨rfl, ht⟩ := answering_comes (handshake_success h cfg ans flags w hret) hreact
    simp [ht, told, captured, hret, Reported]
  · by_cases herr : Retry b.codes ans.err
    · obtain ⟨rfl, ht⟩ := answering_comes (handshake_retry h cfg ans flags w hret herr) hreact
      simp [ht, told, captured, herr, Reported]
    · obtain ⟨rfl, ht⟩ := answering_comes (handshake_failure h cfg ans flags w hret herr) hreact
      simp [ht, told, captured, hret, herr, Reported, noting]

theorem read_reported {datalen : UInt32} {ans : CallAnswer}
    (hreact : react w (.read h datalen ans) = some (reply, w')) :
    Reported (w.tls h) (w'.tls h) none (captured b.codes (.read h datalen ans)) := by
  by_cases hret : 0 ≤ ans.ret
  · obtain ⟨rfl, ht⟩ := answering_comes (read_success h datalen ans w hret) hreact
    simp [ht, captured, hret, Reported]
  · have hneg : ans.ret < 0 := by grind
    by_cases hclosed : ans.err = b.codes.zeroReturn
    · obtain ⟨rfl, ht⟩ := answering_comes (read_closed h datalen ans w hneg hclosed) hreact
      simp [ht, captured, hclosed, Reported]
    · obtain ⟨rfl, ht⟩ := answering_comes (read_failure h datalen ans w hneg hclosed) hreact
      by_cases herr : Retry b.codes ans.err
      · simp [ht, captured, herr, Reported]
      · simp [ht, captured, hret, hclosed, herr, Reported, noting]

theorem write_reported {datalen : UInt32} {ans : CallAnswer}
    (hreact : react w (.write h datalen ans) = some (reply, w')) :
    Reported (w.tls h) (w'.tls h) none (captured b.codes (.write h datalen ans)) := by
  by_cases hret : 0 < ans.ret
  · obtain ⟨rfl, ht⟩ := answering_comes (write_success h datalen ans w hret) hreact
    simp [ht, captured, hret, Reported]
  · have hle : ans.ret ≤ 0 := by grind
    obtain ⟨rfl, ht⟩ := answering_comes (write_failure h datalen ans w hle) hreact
    by_cases herr : Retry b.codes ans.err
    · simp [ht, captured, herr, Reported]
    · simp [ht, captured, hret, herr, Reported, noting]

/-- The loop tells the handle of its failure only. -/
theorem acceptLoop_reported (answers : List CallAnswer) {r : Int32}
    (hrun : acceptLoop h answers w = (.ok r, w')) :
    (r = 0 ∨ r = -1) ∧
      Reported (w.tls h) (w'.tls h) (if r = -1 then some .fail else none) [] := by
  induction answers generalizing w with
  | nil => cases hrun
  | cons ans rest ih =>
    by_cases hretry : AcceptRetry b.codes ans
    · rw [acceptLoop_retry h w rest hretry] at hrun
      exact ih (w := logging h w (acceptCalls (w.tls h).privSsl ans)) hrun
    · rw [acceptLoop_final h w rest hretry] at hrun
      split at hrun <;> cases hrun
      · exact ⟨.inl rfl, by simp [Reported, logging]⟩
      · exact ⟨.inr rfl, by simp [Reported, logging]⟩

theorem createSslHandle_reported {role : Role} {sockfd : Int32} {hostname : List UInt8} {cfg : Cfg}
    {ans : CreateAnswers}
    (hreact : react w (.createSslHandle h role sockfd hostname cfg ans) = some (reply, w')) :
    Reported (w.tls h) (w'.tls h) none [] := by
  obtain ⟨ret, w₁, hrun, -, rfl⟩ := answering_eq_some.mp hreact
  have hkeep := (createSslHandle_steady h hostname cfg ans).apply (w.setEndpoint h role sockfd)
  rw [hrun] at hkeep
  refine reported_of_steady (hkeep.trans ?_)
  simp [World.setEndpoint, reports]

theorem serverSessionCreate_reported {cfg : ServerCfg} {sockfd : Int32} {ans : CreateAnswers}
    {accepts : List CallAnswer}
    (hreact : react w (.serverSessionCreate (some h) (some cfg) sockfd ans accepts) =
      some (reply, w')) :
    Reported (w.tls h) (w'.tls h)
      (told (.serverSessionCreate (some h) (some cfg) sockfd ans accepts, reply)) [] := by
  obtain ⟨r, w₁, hrun, rfl, rfl⟩ := answering_eq_some.mp hreact
  simp only [espWolfsslServerSessionCreate] at hrun
  obtain ⟨_, w₂, hset, hrun⟩ := Prog.bind_ok_iff.mp hrun
  cases hset
  obtain ⟨ret, w₃, hcreate, hrun⟩ := Prog.bind_ok_iff.mp hrun
  have hkeep :=
    (createSslHandle_steady h [] (.server cfg) ans).apply (w.setEndpoint h .server sockfd)
  rw [hcreate] at hkeep
  have hstart : reports (w₃.tls h) = reports (w.tls h) := by
    simpa [World.setEndpoint, reports] using hkeep
  simp only [reports, Prod.mk.injEq] at hstart
  split at hrun
  · obtain ⟨_, w₄, hio, hrun⟩ := Prog.bind_ok_iff.mp hrun
    cases hio
    obtain ⟨hr, hstate, herrors⟩ := acceptLoop_reported accepts hrun
    rw [World.updateTls_self] at hstate herrors
    refine ⟨?_, ?_⟩
    · simpa [told, recordAt, hstart.1] using hstate
    · simpa [recordAt, hstart.2.1] using herrors
  · obtain ⟨_, w₄, hfail, hrun⟩ := Prog.bind_ok_iff.mp hrun
    cases hfail
    cases hrun
    exact ⟨by simp [told, recordAt], by simp [recordAt, hstart.2.1]⟩

/-- What an operation reports to its handle is seen in its reply and the answers
it got. -/
theorem react_reported {op : Op} (hop : handleOf (kind op) = some h)
    (hreact : react w op = some (reply, w')) :
    Reported (w.tls h) (w'.tls h) (told (op, reply)) (captured b.codes op) := by
  cases op with
  | createSslHandle k role sockfd hostname cfg ans =>
    cases hop
    exact createSslHandle_reported hreact
  | serverSessionCreate k cfg sockfd ans accepts =>
    cases k with
    | none => cases hop
    | some k =>
      cases cfg with
      | none => cases hop
      | some cfg =>
        cases hop
        exact serverSessionCreate_reported hreact
  | handshake k cfg ans flags =>
    cases hop
    exact handshake_reported hreact
  | read k datalen ans =>
    cases hop
    exact read_reported hreact
  | write k datalen ans =>
    cases hop
    exact write_reported hreact
  | connDelete k =>
    cases k with
    | none => cases hop
    | some k =>
      cases hop
      cases hreact
      exact reported_of_steady (cleanup_reports h w)
  | serverSessionDelete k =>
    cases k with
    | none => cases hop
    | some k =>
      cases hop
      cases hreact
      exact reported_of_steady (cleanup_reports h w)
  | pskClientCb k identity idMaxLen key keyMaxLen =>
    cases hop
    cases step_effect (step_of_react hreact) with
    | callback _ hrun hw' =>
      subst hw'
      refine reported_of_steady ?_
      rcases espWolfsslPskClientCb_cases hrun with ⟨_, _, rfl⟩ | ⟨_, _, rfl, _⟩ <;> rfl
  | initGlobalCaStore => cases hop
  | setGlobalCaStore cacertPemBuf malloc => cases hop
  | getGlobalCaStore => cases hop
  | freeGlobalCaStore => cases hop

end Steps

/-- The entries of a run that work for the handle. -/
def own (h : Handle) (given : List (Op × Reply)) : List (Op × Reply) :=
  given.filter fun entry => handleOf (kind entry.1) == some h

/-- What the run told the handle last. -/
def lastTold (h : Handle) (given : List (Op × Reply)) : Option ConnState :=
  ((own h given).filterMap told).getLast?

/-- The failures that the run listed in the handle. -/
def history (c : Codes) (h : Handle) (given : List (Op × Reply)) : List Capture :=
  (own h given).flatMap fun entry => captured c entry.1

theorem Reported.trans {t₀ t t' : Tls} {first last : Option ConnState} {entries more : List Capture}
    (hfirst : Reported t₀ t first entries) (hlast : Reported t t' last more) :
    Reported t₀ t' (last.or first) (entries ++ more) := by
  refine ⟨?_, ?_⟩
  · rw [hlast.1, hfirst.1]
    cases last <;> rfl
  · rw [hlast.2, hfirst.2, List.append_assoc]

theorem answers_reported (h : Handle) {ops : List Op} {w w' : World b}
    {given : List (Op × Reply)} (hrun : answers react w ops = some (given, w')) :
    Reported (w.tls h) (w'.tls h) (lastTold h given) (history b.codes h given) := by
  induction ops generalizing w given with
  | nil =>
    cases hrun
    exact ⟨rfl, by simp [history, own]⟩
  | cons op ops ih =>
    obtain ⟨reply, w₁, rest, hreact, hrest, rfl⟩ := answers_cons_eq_some.mp hrun
    have hlater := ih hrest
    by_cases hop : handleOf (kind op) = some h
    · have hboth := (react_reported hop hreact).trans hlater
      have hown : own h ((op, reply) :: rest) = (op, reply) :: own h rest := by simp [own, hop]
      have hlast : lastTold h ((op, reply) :: rest) = (lastTold h rest).or (told (op, reply)) := by
        rw [lastTold, hown, List.filterMap_cons]
        cases htold : told (op, reply) with
        | none => simp [lastTold]
        | some state =>
          simp only [lastTold, List.getLast?_cons]
          cases (List.filterMap told (own h rest)).getLast? <;> rfl
      rw [hlast]
      simpa [history, hown] using hboth
    · have hskip : own h ((op, reply) :: rest) = own h rest := by simp [own, hop]
      have hsame : w₁.tls h = w.tls h := step_others (step_effect (step_of_react hreact)) hop
      simpa only [lastTold, history, hskip, hsame] using hlater

/-- In every run from boot a handle is in the state that its own operations told
it last, or in the initial one if they told it none. Its `error_handle` lists
exactly their failures, in their order. -/
theorem reports_follow_replies (h : Handle) {lockCreated : Bool} {ops : List Op} {w : World b}
    {given : List (Op × Reply)}
    (hrun : answers react (World.boot b lockCreated) ops = some (given, w)) :
    (w.tls h).connState = (lastTold h given).getD .init ∧
      (w.tls h).errorHandle = history b.codes h given := by
  obtain ⟨hstate, herrors⟩ := answers_reported h hrun
  exact ⟨hstate, herrors.trans (List.nil_append _)⟩

/-- One client fails in its handshake while another one connects and reads. -/
def oneFailsBesideAnother : List Op :=
  [.createSslHandle 1 .client 4 [] (.client plainClient) allSucceed,
    .createSslHandle 2 .client 5 [] (.client plainClient) allSucceed,
    .handshake 2 plainClient ⟨wolfsslSuccess, 0⟩ 0,
    .handshake 1 plainClient ⟨-1, -308⟩ 0,
    .read 2 8 ⟨-1, -313⟩,
    .connDelete (some 1)]

theorem failed_beside_another :
    ∃ (given : List (Op × Reply)) (w : World exampleBuild),
      answers react (World.boot exampleBuild true) oneFailsBesideAnother = some (given, w) ∧
      (w.tls 1).connState = (lastTold 1 given).getD .init ∧
      (w.tls 1).errorHandle = history exampleBuild.codes 1 given ∧
      history exampleBuild.codes 1 given = [.customStack 308, .esp .wolfsslSslHandshakeFailed] := by
  have hrun : ∃ given w, answers react (World.boot exampleBuild true) oneFailsBesideAnother =
      some (given, w) ∧ history exampleBuild.codes 1 given =
        [.customStack 308, .esp .wolfsslSslHandshakeFailed] := ⟨_, _, rfl, rfl⟩
  obtain ⟨given, w, hrun, hhistory⟩ := hrun
  obtain ⟨hstate, herrors⟩ := reports_follow_replies 1 hrun
  exact ⟨given, w, hrun, hstate, herrors, hhistory⟩

end EspWolfssl.ReportHistory
