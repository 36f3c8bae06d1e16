import ChipEight.Main
import ChipEight.Proofs.Alignment
import ChipEight.Proofs.Batches
import ChipEight.Proofs.Checked.Perform
import ChipEight.Proofs.CircularCompilation
import ChipEight.Proofs.Dispatch
import ChipEight.Proofs.Footprint
import ChipEight.Proofs.HeldKeys
import ChipEight.Proofs.Interference
import ChipEight.Proofs.KeyWait
import ChipEight.Proofs.Loading
import ChipEight.Proofs.LogTrace
import ChipEight.Proofs.MemoryListing
import ChipEight.Proofs.OperandFields
import ChipEight.Proofs.Outcome
import ChipEight.Proofs.Playback
import ChipEight.Proofs.ProgramCounter
import ChipEight.Proofs.RandomStream
import ChipEight.Proofs.ReadFootprint
import ChipEight.Proofs.Redrawing
import ChipEight.Proofs.SettingsDecoding
import ChipEight.Proofs.Storage
import ChipEight.Proofs.Subroutines
import ChipEight.Proofs.Suspension
import ChipEight.Proofs.TimerValues
import ChipEight.Proofs.TwelveBit
