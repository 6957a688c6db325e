import Punaro.Proof.Fencing
import Punaro.Proof.Occupancy
import Punaro.Proof.Convergence
import Punaro.Proof.Administrators
import Punaro.Proof.Direct
import Punaro.Proof.Retries
import Punaro.Proof.Handoff
import Punaro.Proof.Wake
import Punaro.Proof.Import
import Punaro.Proof.Confined
import Punaro.Proof.Adoption
import Punaro.Proof.Revocation
import Punaro.Proof.Threads
import Punaro.Proof.Completed
import Punaro.Proof.Cycles
import Punaro.Proof.Records
import Punaro.Proof.Invalidation
import Punaro.Proof.HighWater
import Punaro.Proof.Labels
import Punaro.Proof.Rates
import Punaro.Proof.Enrollments
import Punaro.Proof.Rendering
import Punaro.Proof.Skills
import Punaro.Proof.Escapes
