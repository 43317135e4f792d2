import ScriptedActors.Actor.Report
import ScriptedActors.Main
import ScriptedActors.Proofs.Script.OpenBlocks
import ScriptedActors.Proofs.Statement.Retraction
import ScriptedActors.Proofs.LiveSet.UniqueIds
import ScriptedActors.Proofs.Actor.Detaching
import ScriptedActors.Proofs.Actor.Executions
import ScriptedActors.Proofs.Actor.Panics
import ScriptedActors.Proofs.LiveSet.Containment
import ScriptedActors.Proofs.Migration.Origins
import ScriptedActors.Proofs.Migration.Imports
import ScriptedActors.Proofs.Migration.Resumption
import ScriptedActors.Proofs.Registrations
import ScriptedActors.Proofs.Script.Loads
import ScriptedActors.Proofs.LiveSet.Freshness
import ScriptedActors.Proofs.Migration.Isolation
import ScriptedActors.Proofs.Event.Fields
import ScriptedActors.Proofs.Config
import ScriptedActors.Proofs.Statement.Records
import ScriptedActors.Proofs.Script.Concatenation
import ScriptedActors.Proofs.Script.Differences
import ScriptedActors.Proofs.Migration.Reports
import ScriptedActors.Proofs.Actor.Footprint
import ScriptedActors.Proofs.Actor.Falls
import ScriptedActors.Proofs.Actor.Sightings
import ScriptedActors.Proofs.Event.Access
import ScriptedActors.Proofs.Location.Faults
import ScriptedActors.Proofs.Statement.Errors
import ScriptedActors.Proofs.Script.Checks
import ScriptedActors.Proofs.Script.Enumeration
import ScriptedActors.Proofs.Statement.Spacing
import ScriptedActors.Proofs.Statement.Calls
