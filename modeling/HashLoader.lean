import HashLoader.Host.Local
import HashLoader.Config.Document
import HashLoader.Image.Padding
import HashLoader.Invocation
import HashLoader.Wasm.Interpreter
import HashLoader.Record.Cursors
import HashLoader.Proofs.Args
import HashLoader.Proofs.Config
import HashLoader.Proofs.Record.Script
import HashLoader.Proofs.Record.Failing
import HashLoader.Proofs.Record.Rejection
import HashLoader.Proofs.Record.Cursors
import HashLoader.Proofs.Record.Draft
import HashLoader.Proofs.Record.Walk
import HashLoader.Proofs.Arena.Code
import HashLoader.Proofs.Arena.Flat
import HashLoader.Proofs.Arena.Staging
import HashLoader.Proofs.Arena.Words
import HashLoader.Proofs.Arena.Execution
import HashLoader.Proofs.Text.Utf8
import HashLoader.Proofs.Text.Lossy
import HashLoader.Proofs.Host.Dialogue
import HashLoader.Proofs.Host.Loading
import HashLoader.Proofs.Host.Deployment
import HashLoader.Proofs.Host.Addressing
import HashLoader.Proofs.Host.Persistence
import HashLoader.Proofs.Host.Outcome
import HashLoader.Proofs.Image.Resolve
import HashLoader.Proofs.Image.Authentic
import HashLoader.Proofs.Image.Search
import HashLoader.Proofs.Image.Capacity
import HashLoader.Proofs.Image.Lookup
import HashLoader.Proofs.Image.Padding
import HashLoader.Proofs.Engine.Spec
import HashLoader.Proofs.Engine.Recording
import HashLoader.Proofs.Wasm.Provenance
import HashLoader.Proofs.Wasm.Trace
import HashLoader.Proofs.Wasm.SharedMemory
import HashLoader.Proofs.Wasm.Segments
import HashLoader.Proofs.Wasm.StoreEffects
import HashLoader.Proofs.Wasm.Messages
import HashLoader.Proofs.Wasm.Budget
import HashLoader.Proofs.Wasm.Framing
import HashLoader.Proofs.Wasm.Sending
import HashLoader.Proofs.Wasm.Interpreter
import HashLoader.Proofs.Invocation.Dialogue
import HashLoader.Proofs.Invocation.Report
import HashLoader.Proofs.Invocation.Protocol
import HashLoader.Proofs.Invocation.FlatReading
import HashLoader.Proofs.Invocation.Uninterpreted
import HashLoader.Proofs.Invocation.Log
import HashLoader.Proofs.Invocation.Activations
import HashLoader.Proofs.Invocation.Authentication
import HashLoader.Proofs.Invocation.Classification
import HashLoader.Proofs.Invocation.Entries
import HashLoader.Proofs.Invocation.Inputs
import HashLoader.Proofs.Invocation.Linking
import HashLoader.Proofs.Invocation.Lockstep
import HashLoader.Proofs.Invocation.Budget
import HashLoader.Proofs.Invocation.Capture
import HashLoader.Proofs.Invocation.Sending
import HashLoader.Proofs.Invocation.Truncation
