import Clickstream.Cli.Command
import Clickstream.Cli.Program

/-! # Goals on the command line

Listing, showing, creating, saving, deleting and reporting on goals. Tables cut long ids and names;
a document is printed with its fields in the order of their declaration.
-/

namespace Clickstream.Cli

/-- The columns of a list of goals. -/
def goalColumns (id name enabled module : String) : String :=
  padRight 24 id ++ " " ++ padRight 30 name ++ " " ++ padRight 9 enabled ++ " "
    ++ padRight 16 module

/-- A line of a list of goals. -/
def goalLine (m : Metadata) : String :=
  goalColumns (truncated 22 m.id) (truncated 28 m.name) (if m.enabled then "yes" else "no")
    (m.moduleId.getD "-")

def listGoals (all : Bool) : Program Unit := do
  let metadatas ← Program.operate GoalError.message Goals.metadatas
  match metadatas.filter fun m => all || !m.hidden with
  | [] => Program.printLine "No goals found."
  | goals =>
    Program.print (lines (goalColumns "ID" "NAME" "ENABLED" "MODULE" :: rule 82
      :: goals.map goalLine))
    Program.print ("\n" ++ toString goals.length ++ " goal(s) total.\n")

def showGoal (id : String) : Program Unit := do
  let goal ← Program.operate ServerError.message (Server.goal id)
  Program.printLine goal.toJson.pretty

def createGoal (id name description : String) : Program Unit := do
  Program.operate GoalError.message (Goals.createGoal id name description)
  Program.printLine ("Created goal: " ++ id)

/-- Save the goal of a file. -/
def saveGoal (file : String) (id : Option String) : Program Unit := do
  let text ← Program.readFile file
  match (Json.read? text).bind Goal.ofDocument? with
  | none => Program.fail ("invalid goal document " ++ file)
  | some goal =>
    let id := id.getD goal.id
    if id = "" then Program.fail "goal document has no metadata.id, pass --id"
    Program.operate GoalError.message (Goals.setGoal id goal)
    Program.printLine ("Saved goal: " ++ id)

def deleteGoal (id : String) : Program Unit := do
  if ← Program.operate GoalError.message (Goals.removeGoal id) then
    Program.printLine ("Removed goal: " ++ id)
  else throw ("Goal not found: " ++ id)

/-- The columns of a report. -/
def reportColumns (key started reached conversion share : String) : String :=
  padRight 24 key ++ " " ++ padLeft 10 started ++ " " ++ padLeft 10 reached ++ " "
    ++ padLeft 12 conversion ++ " " ++ padLeft 12 share

def reportLine (key : String) (stat : Stat) : String :=
  reportColumns (truncated 22 key) (toString stat.startCount) (toString stat.targetCount)
    (percent stat.conversionRate) (percent stat.percentage)

def reportText (report : GoalReport) : String :=
  let all := report.globalStats
  lines ["Started:    " ++ toString all.startCount, "Reached:    " ++ toString all.targetCount,
    "Conversion: " ++ percent all.conversionRate]
  ++ if report.split.isEmpty then ""
    else "\n" ++ lines (reportColumns "SPLIT" "STARTED" "REACHED" "CONVERSION" "SHARE" :: rule 72
      :: report.split.map fun (key, stat) => reportLine key stat)

def readCondition (file : String) : Program Condition := do
  let text ← Program.readFile file
  match (Json.read? text).bind Condition.ofDocument? with
  | some condition => return condition
  | none => Program.fail ("invalid condition document " ++ file)

def reportGoal (id : String) (split filter : Option String) (json : Bool) : Program Unit := do
  let filter ← filter.mapM readCondition
  let report ← Program.operate ServerError.message (Server.goalReport id split filter)
  if json then Program.printLine report.toJson.pretty
  else Program.print (reportText report)

/-- Carry out a command on goals. -/
def runGoalCommand (config : ServerConfig) (command : GoalCommand) : Program Unit := do
  Program.openServer config
  match command with
  | .list all => listGoals all
  | .show id => showGoal id
  | .create id name description => createGoal id name description
  | .set file id => saveGoal file id
  | .remove id => deleteGoal id
  | .report id split filter json => reportGoal id split filter json

end Clickstream.Cli
