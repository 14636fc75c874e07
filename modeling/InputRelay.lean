import InputRelay.Main
import InputRelay.Scenario
import InputRelay.Wire.Stream
import InputRelay.Writer
import InputRelay.Proofs.Wire.Fields
import InputRelay.Proofs.Wire.RoundTrip
import InputRelay.Proofs.Wire.Acceptance
import InputRelay.Proofs.Session.Nesting
import InputRelay.Proofs.Sink
import InputRelay.Proofs.Session.Clocks
import InputRelay.Proofs.Session.Sending
import InputRelay.Proofs.Writer
import InputRelay.Proofs.Writer.Flushing
import InputRelay.Proofs.Numbering
import InputRelay.Proofs.Capture
import InputRelay.Proofs.Pipeline
import InputRelay.Proofs.Session.Moments
import InputRelay.Proofs.Focus
import InputRelay.Proofs.Session.Provenance
import InputRelay.Proofs.Session.Tracking
import InputRelay.Proofs.Capture.Restarts
import InputRelay.Proofs.Registration
import InputRelay.Proofs.Session.Inbox
import InputRelay.Proofs.Wire.Cuts
import InputRelay.Proofs.Wire.Extension
import InputRelay.Proofs.Wire.Reading
import InputRelay.Proofs.Writer.Failing
import InputRelay.Proofs.Session.Blocks
import InputRelay.Proofs.Wire.Canonical
import InputRelay.Proofs.Session.Destination
import InputRelay.Proofs.Session.Turns
import InputRelay.Proofs.Session.Loss
import InputRelay.Proofs.Session.Targeted
import InputRelay.Proofs.Session.Untargeted
import InputRelay.Proofs.Session.Handover
import InputRelay.Proofs.Session.Scroll
import InputRelay.Proofs.Config.Merging
