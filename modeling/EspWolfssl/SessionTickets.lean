import EspWolfssl.RequestDelivery
import EspWolfssl.ScopedResources

/-!
The client sessions of the request example. A session is handed out at the end of an
exchange and kept in a static for the next request. It is used and freed only while it
is live, and behind the request that uses it none is left.
-/
namespace EspWolfssl.SessionTickets

open ByteRegions TaggedLogs ResourceLedger ScopedResources Platform ProgramLogic BackendState
  Transfers HttpsRequest RequestDelivery

variable {b : Build} {lib : EspTls b} {fresh : List ℕ}

/-- What happened to the sessions. -/
def sessionActions (s : AppState b) : List (Unit × Action Unit) :=
  view SessionCall.action s.sessionLog

/-- What is held with a session: at most itself. -/
def sessionStack (session : Option ℕ) : List (Held Unit) := session.toList.map (⟨·, (), none⟩)

/-- The live session, if any, is `session`, and the fresh ones were not handed out yet. -/
def Keeping (fresh : List ℕ) (session : Option ℕ) (s : AppState b) : Prop :=
  Holds () (sessionActions s) (· ∈ fresh) (sessionStack session)

/-- Between its replacements the live session is the one in the static. -/
def SessionKept (fresh : List ℕ) (s : AppState b) : Prop := Keeping fresh s.tlsClientSession s

/-- The part of the state that the sessions live in. -/
def ticketPart (s : AppState b) : List (Unit × SessionCall) × Option ℕ × Bool :=
  (s.sessionLog, s.tlsClientSession, s.saveClientSession)

theorem SessionKept.congr {s s' : AppState b} (hs : SessionKept fresh s)
    (hsame : ticketPart s' = ticketPart s) : SessionKept fresh s' := by
  simp only [ticketPart, Prod.mk.injEq] at hsame
  obtain ⟨hlog, hsession, _⟩ := hsame
  unfold SessionKept Keeping sessionActions
  rw [hlog, hsession]
  exact hs

theorem SessionKept.weaken {fewer : List ℕ} {s : AppState b} (hs : SessionKept fresh s)
    (hfewer : fewer ⊆ fresh) : SessionKept fewer s :=
  Holds.weaken hs fun _ hid => hfewer hid

/-- No session is to be saved, and none is. -/
def Off (s : AppState b) : Prop := s.saveClientSession = false ∧ s.tlsClientSession = none

theorem Off.congr {s s' : AppState b} (hs : Off s) (hsame : ticketPart s' = ticketPart s) :
    Off s' := by
  simp only [ticketPart, Prod.mk.injEq] at hsame
  exact ⟨hsame.2.2.trans hs.1, hsame.2.1.trans hs.2⟩

/-- Nothing is kept, and nothing will be. -/
def Idle (s : AppState b) : Prop := SessionKept [] s ∧ Off s

theorem Idle.congr {s s' : AppState b} (hs : Idle s) (hsame : ticketPart s' = ticketPart s) :
    Idle s' :=
  ⟨hs.1.congr hsame, hs.2.congr hsame⟩

end EspWolfssl.SessionTickets
