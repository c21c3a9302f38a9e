import EmbeddedScript.Session.Bridging
import EmbeddedScript.Session.Collector
import EmbeddedScript.Session.Engines
import EmbeddedScript.Session.Guards
import EmbeddedScript.Session.Natives
import EmbeddedScript.Session.Scripts
import EmbeddedScript.Proofs.Bridge.Balance
import EmbeddedScript.Proofs.Bridge.Passage
import EmbeddedScript.Proofs.Bridge.Exclusivity
import EmbeddedScript.Proofs.Bridge.RoundTrip
import EmbeddedScript.Proofs.Machine.Reentrancy
import EmbeddedScript.Proofs.Roots.Lifetime
import EmbeddedScript.Proofs.Heap.Generations
import EmbeddedScript.Proofs.World.Contents
import EmbeddedScript.Proofs.Machine.HostMethods
import EmbeddedScript.Proofs.Reflection.Classes
import EmbeddedScript.Proofs.Reflection.Descriptors
import EmbeddedScript.Proofs.Lock.Guards
import EmbeddedScript.Proofs.Bridge.Engines
import EmbeddedScript.Proofs.Bridge.Methods
import EmbeddedScript.Proofs.Heap.Turns
import EmbeddedScript.Proofs.Machine.Accounting
import EmbeddedScript.Proofs.Machine.Listings
import EmbeddedScript.Proofs.Machine.Arrays
import EmbeddedScript.Proofs.Machine.Writes
import EmbeddedScript.Proofs.Bridge.Exceptions
import EmbeddedScript.Proofs.Bridge.Iteration
import EmbeddedScript.Proofs.Bridge.Refusals
import EmbeddedScript.Proofs.Machine.StringForms
import EmbeddedScript.Proofs.Machine.Primitives
import EmbeddedScript.Proofs.Bridge.Callability
import EmbeddedScript.Proofs.Machine.Safepoints
