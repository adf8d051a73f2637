import MpcLib.Tss.Error
import MpcLib.Common.BigInt
import MpcLib.Common.Bytes
import MpcLib.ZkProofs.Utils
import MpcLib.ZkProofs.Dec
import MpcLib.ZkProofs.ProofArray
import MpcLib.Cggplus.Round2
import MpcLib.Cggplus.Round2Interleaving
import MpcLib.Cggplus.Round2Update
import MpcLib.Cggplus.Round2Session
import MpcLib.Eddsa.ResharingRound5
