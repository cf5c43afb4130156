import TieredDispatch.Dispatch.Handling
import TieredDispatch.Main
import TieredDispatch.Proofs.Chronicle
import TieredDispatch.Proofs.Conservation
import TieredDispatch.Proofs.Decoding
import TieredDispatch.Proofs.Entries
import TieredDispatch.Proofs.FieldSelection
import TieredDispatch.Proofs.Forecast
import TieredDispatch.Proofs.Forward
import TieredDispatch.Proofs.Increments
import TieredDispatch.Proofs.Independence
import TieredDispatch.Proofs.Isolation
import TieredDispatch.Proofs.Mistaken
import TieredDispatch.Proofs.Nesting
import TieredDispatch.Proofs.ProgramRun
import TieredDispatch.Proofs.Prompt
import TieredDispatch.Proofs.Returning
import TieredDispatch.Proofs.Rollback
import TieredDispatch.Proofs.RoundTrip
import TieredDispatch.Proofs.SingleCaller
import TieredDispatch.Proofs.Snapshots
import TieredDispatch.Proofs.Superseding
import TieredDispatch.Proofs.Tiering
import TieredDispatch.Proofs.Wrapping
import TieredDispatch.Script.Counting
import TieredDispatch.Script.Dispatching
