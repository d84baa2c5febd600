import EspWolfssl.AlpnOrder
import EspWolfssl.CaHandover
import EspWolfssl.ClientRounds
import EspWolfssl.ClockHistory
import EspWolfssl.ConnectionIsolation
import EspWolfssl.ErrorClassification
import EspWolfssl.FailClosed
import EspWolfssl.FormatDetection
import EspWolfssl.LengthArithmetic
import EspWolfssl.LockOwnership
import EspWolfssl.LockRelease
import EspWolfssl.ObjectLifecycle
import EspWolfssl.PskCrossTalk
import EspWolfssl.PskRoundTrip
import EspWolfssl.RecordedErrors
import EspWolfssl.ReportHistory
import EspWolfssl.RequestTask
import EspWolfssl.SntpRetries
import EspWolfssl.SoleConnection
import EspWolfssl.StoreReplacement
import EspWolfssl.TransferReports
import EspWolfssl.VerifiedRequests
