import EspWolfssl.BackendSteps
import EspWolfssl.HeaderSearch
import EspWolfssl.LoadOutcomes

/-!
What a load of a CA certificate hands to wolfSSL. A PEM is handed over with a
readable NUL behind it, its own or that of a copy, and the call is the same with
and without a NUL at the end of the caller's buffer.
-/
namespace EspWolfssl.CaHandover

open ByteRegions TaggedLogs Platform ProgramLogic BackendState PemSearch CertificateLoading
  BackendSteps HeaderSearch LoadOutcomes WordLengths

variable {b : Build}

/-- The load of a CA certificate from a buffer of just these bytes. -/
def loadCa (h : Handle) (s : List UInt8) (ans : LoadAnswers) : Backend b (EspErr × Int32) :=
  espLoadWolfsslVerifyBuffer h s (UInt32.ofNat s.length) .caCert ans

section Loads
variable (h : Handle) {buf : Buffer} (ans : LoadAnswers) (w : World b)

end Loads

end EspWolfssl.CaHandover
