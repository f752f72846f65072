import LexicalScope.Main
import LexicalScope.Text.Describe
import LexicalScope.Proofs.Session.Restore
import LexicalScope.Proofs.Session.Settle
import LexicalScope.Proofs.Session.LoopBody
import LexicalScope.Proofs.Session.Floors
import LexicalScope.Proofs.Session.Law
import LexicalScope.Proofs.Session.Replay
import LexicalScope.Proofs.Stack.First
import LexicalScope.Proofs.Stack.Shadow
import LexicalScope.Proofs.Stack.Restrict
import LexicalScope.Proofs.Session.Projection
import LexicalScope.Proofs.Session.Noninterference
import LexicalScope.Proofs.Flat.Machine
import LexicalScope.Proofs.Flat.Stamps
import LexicalScope.Proofs.Flat.Table
import LexicalScope.Proofs.Flat.Refinement
import LexicalScope.Proofs.Session.Shield
import LexicalScope.Proofs.Table.Cut
import LexicalScope.Proofs.Session.Spans
import LexicalScope.Proofs.Session.Failure
import LexicalScope.Proofs.Session.Observation
import LexicalScope.Proofs.Session.Copy
import LexicalScope.Proofs.Session.Carry
import LexicalScope.Proofs.Session.RoundTrip
import LexicalScope.Proofs.Table.Resolution
import LexicalScope.Proofs.Session.Seeding
import LexicalScope.Proofs.Text.Describe
