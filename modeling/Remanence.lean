import Remanence.Aead.Envelope
import Remanence.Crc64Law
import Remanence.Parity.Kernels
import Remanence.Parity.SidecarDamage
import Remanence.Parity.CanonicalCbor
import Remanence.Parity.Burst
import Remanence.Parity.MapBuilder
import Remanence.Parity.MetadataPin
import Remanence.Parity.WriterEpoch
import Remanence.Parity.RestartLaw
import Remanence.Parity.Closability
import Remanence.TapeLog.ScanLaw
import Remanence.TapeLog.Preflight
import Remanence.TapeLog.Authority
import Remanence.TapeLog.Finalization
import Remanence.Audit.ChainBinding
import Remanence.Stream.Containment
import Remanence.Stream.RecoveryRuns
import Remanence.Parity.ResumeLaw
import Remanence.Format.HeaderLaw
import Remanence.Format.Pfr
import Remanence.Order.PlannerLaw
import Remanence.Order.WrapMapLaw
import Remanence.Order.CostLaw
import Remanence.Append.RingLaw
import Remanence.Parity.ReadRunLaw
