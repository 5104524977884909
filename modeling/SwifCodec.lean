import SwifCodec.FullSymbol.Composition
import SwifCodec.FullSymbol.Linear
import SwifCodec.FullSymbolSet.Redundant
import SwifCodec.FullSymbolSet.Iterations
import SwifCodec.FullSymbolSet.Closure
import SwifCodec.FullSymbolSet.Growth
import SwifCodec.FullSymbolSet.PacketCount
import SwifCodec.Rlc.ExactlyOnce
import SwifCodec.Rlc.Session
import SwifCodec.Rlc.Generation
import SwifCodec.Rlc.DecoderWindow
import SwifCodec.Rlc.EncoderSafety
import SwifCodec.Rlc.Translation
import SwifCodec.CoefficientLaw
import SwifCodec.Wrapper.FieldElem
import SwifCodec.Application.Delivery
import SwifCodec.Memory.Runs
import SwifCodec.Memory.Encoder
import SwifCodec.Memory.Lending
import SwifCodec.Application.Memory
