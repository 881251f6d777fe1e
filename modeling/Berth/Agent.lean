import Berth.Models

/-!
The agent of one host as the hub sees it: the containers its Podman knows, the deployment
directories it keeps, and what each request does to them. A request runs to its end here in one
step; `Fault` says which of its own steps fails.
-/

namespace Berth

structure Container where
  name : String
  running : Bool
  deriving DecidableEq

structure Agent where
  containers : List Container
  deploymentDirs : List String
  deriving DecidableEq

inductive AgentErrorKind where
  | unavailable
  | startFailed
  | commandFailed
  deriving DecidableEq

structure AgentError where
  kind : AgentErrorKind
  message : String
  deriving DecidableEq

abbrev CommandResult : Type := Except AgentError Unit

inductive Request where
  | startRunContainer (deploymentId containerName : String) (runConfig : RunConfig)
      (envVars : List EnvVar)
  | stopAndRemoveContainer (containerName : String) (isInstall : Bool)
  | runBuildCommand (containerName image command : String) (envVars : List EnvVar)
  | createDeploymentDir (deploymentId : String)
  | deleteDeploymentDir (deploymentId : String)
  | listDeploymentDirs
  | uploadZipAndExtract (deploymentId : String)
  deriving DecidableEq

def Request.Reply : Request → Type
  | startRunContainer .. | stopAndRemoveContainer .. | runBuildCommand .. => CommandResult
  | createDeploymentDir .. | deleteDeploymentDir .. | uploadZipAndExtract .. => CommandResult
  | listDeploymentDirs => Except AgentError (List String)

/-- Answered by a stream that ends with the result, rather than by one reply within a timeout. -/
def Request.IsStreamed : Request → Bool
  | startRunContainer .. | runBuildCommand .. => true
  | stopAndRemoveContainer .. | createDeploymentDir .. | deleteDeploymentDir ..
  | listDeploymentDirs | uploadZipAndExtract .. => false

inductive FaultAt where
  | inspect
  | ensureImage
  | createCommand
  | startCommand
  | waitCommand
  | command
  | createContainer
  | startContainer
  | stopContainer
  | removeContainer
  | directory
  deriving DecidableEq

structure Fault where
  at_ : FaultAt
  message : String
  deriving DecidableEq

/-- The message with which the given step fails, if it does. -/
def Fault.of (fault : Option Fault) (step : FaultAt) : Option String :=
  fault.bind fun fault => if fault.at_ = step then some fault.message else none

def installContainerName (parentName : String) : String := parentName ++ "-install"

def buildContainerName (parentName : String) : String := parentName ++ "-build"

namespace Agent

variable (agent : Agent)

def containerExists (name : String) : Bool :=
  agent.containers.any fun container => container.name = name

def isRunning (name : String) : Bool :=
  agent.containers.any fun container => container.name = name ∧ container.running

def setRunning (name : String) (running : Bool) : Agent :=
  { agent with
    containers := agent.containers.map fun container =>
      if container.name = name then { container with running } else container }

def createContainer (name : String) : Agent :=
  { agent with containers := agent.containers ++ [⟨name, false⟩] }

def removeContainer (name : String) : Agent :=
  { agent with containers := agent.containers.filter fun container => container.name ≠ name }

/-- The outcome, the agent afterwards, and the container `schedule_cleanup` will remove. -/
abbrev Handled (α : Type) : Type := Except AgentError α × Agent × Option String

def runCommandToCompletion (agent : Agent) (name : String) (fault : Option Fault) :
    Handled Unit :=
  match Fault.of fault .ensureImage with
  | some message => (.error ⟨.startFailed, message⟩, agent, none)
  | none =>
  if agent.containerExists name then
    (.error ⟨.startFailed, "the container name is already in use"⟩, agent, none)
  else
  match Fault.of fault .createCommand with
  | some message => (.error ⟨.startFailed, message⟩, agent, none)
  | none =>
  let created := agent.createContainer name
  match Fault.of fault .startCommand with
  | some message => (.error ⟨.startFailed, message⟩, created, none)
  | none =>
  match Fault.of fault .waitCommand with
  | some message => (.error ⟨.startFailed, message⟩, created.setRunning name true, some name)
  | none =>
  match Fault.of fault .command with
  | some message => (.error ⟨.commandFailed, message⟩, created, some name)
  | none => (.ok (), created, some name)

/-- The last steps of `start`: the container is created and started. -/
def createAndStart (agent : Agent) (name : String) (fault : Option Fault) : CommandResult × Agent :=
  match Fault.of fault .createContainer with
  | some message => (.error ⟨.startFailed, message⟩, agent)
  | none =>
  let created := agent.createContainer name
  match Fault.of fault .startContainer with
  | some message => (.error ⟨.startFailed, message⟩, created)
  | none => (.ok (), created.setRunning name true)

def start (agent : Agent) (name : String) (installCommand : Option String)
    (fault : Option Fault) : Handled Unit :=
  match Fault.of fault .inspect with
  | some message => (.error ⟨.unavailable, message⟩, agent, none)
  | none =>
  if agent.isRunning name then (.ok (), agent, none)
  else if agent.containerExists name then
    match Fault.of fault .startContainer with
    | some message => (.error ⟨.startFailed, message⟩, agent, none)
    | none => (.ok (), agent.setRunning name true, none)
  else
  match Fault.of fault .ensureImage with
  | some message => (.error ⟨.startFailed, message⟩, agent, none)
  | none =>
  match installCommand with
  | none =>
      let (result, started) := agent.createAndStart name fault
      (result, started, none)
  | some _ =>
      match agent.runCommandToCompletion (installContainerName name) fault with
      | (.error err, installed, cleanup) => (.error err, installed, cleanup)
      | (.ok (), installed, cleanup) =>
          let (result, started) := installed.createAndStart name fault
          (result, started, cleanup)

/-- Missing (already gone) counts as success. -/
def stopAndRemove (agent : Agent) (name : String) (fault : Option Fault) : Handled Unit :=
  if !agent.containerExists name then (.ok (), agent, none)
  else
  match Fault.of fault .stopContainer with
  | some message => (.error ⟨.unavailable, message⟩, agent, none)
  | none =>
  match Fault.of fault .removeContainer with
  | some message => (.error ⟨.unavailable, message⟩, agent.setRunning name false, none)
  | none => (.ok (), agent.removeContainer name, none)

def handle (agent : Agent) (fault : Option Fault) :
    (request : Request) → request.Reply × Agent × Option String
  | .startRunContainer _ name runConfig _ => agent.start name runConfig.installCommand fault
  | .stopAndRemoveContainer name isInstall =>
      agent.stopAndRemove (if isInstall then installContainerName name else name) fault
  | .runBuildCommand name _ _ _ =>
      agent.runCommandToCompletion (buildContainerName name) fault
  | .createDeploymentDir id =>
      match Fault.of fault .directory with
      | some message => (.error ⟨.unavailable, message⟩, agent, none)
      | none => (.ok (), { agent with deploymentDirs := id :: agent.deploymentDirs }, none)
  | .deleteDeploymentDir id =>
      match Fault.of fault .directory with
      | some message => (.error ⟨.unavailable, message⟩, agent, none)
      | none =>
          (.ok (), { agent with deploymentDirs := agent.deploymentDirs.filter (· ≠ id) }, none)
  | .listDeploymentDirs =>
      match Fault.of fault .directory with
      | some message => (.error ⟨.unavailable, message⟩, agent, none)
      | none => (.ok agent.deploymentDirs, agent, none)
  | .uploadZipAndExtract id =>
      match Fault.of fault .directory with
      | some message => (.error ⟨.commandFailed, message⟩, agent, none)
      | none =>
          if id ∈ agent.deploymentDirs then (.ok (), agent, none)
          else (.error ⟨.commandFailed, "the deployment directory does not exist"⟩, agent, none)

/-! Which containers run after a request. -/

variable {agent} {name other : String} {fault : Option Fault}

@[simp] theorem isRunning_createContainer :
    (agent.createContainer name).isRunning other = agent.isRunning other := by
  simp [createContainer, isRunning]

theorem isRunning_setRunning_of_ne {running : Bool} (different : other ≠ name) :
    (agent.setRunning name running).isRunning other = agent.isRunning other := by
  simp only [setRunning, isRunning, List.any_map]
  congr 1
  funext container
  by_cases same : container.name = name
  · simp [same, different.symm]
  · simp [same]

theorem isRunning_setRunning_true (present : agent.containerExists name = true) :
    (agent.setRunning name true).isRunning name = true := by
  simp only [containerExists, List.any_eq_true, decide_eq_true_eq] at present
  obtain ⟨container, member, rfl⟩ := present
  simp only [setRunning, isRunning, List.any_map, List.any_eq_true]
  exact ⟨container, member, by simp⟩

@[simp] theorem isRunning_setRunning_false :
    (agent.setRunning name false).isRunning name = false := by
  simp only [setRunning, isRunning, List.any_map, List.any_eq_false]
  intro container _
  by_cases same : container.name = name <;> simp [same]

@[simp] theorem isRunning_removeContainer_self :
    (agent.removeContainer name).isRunning name = false := by
  simp +contextual [removeContainer, isRunning]

theorem isRunning_removeContainer_of_ne (different : other ≠ name) :
    (agent.removeContainer name).isRunning other = agent.isRunning other := by
  simp only [removeContainer, isRunning, List.any_filter]
  congr 1
  funext container
  by_cases same : container.name = name
  · simp [same, different.symm]
  · simp [same]

theorem isRunning_of_not_exists (absent : agent.containerExists name = false) :
    agent.isRunning name = false := by
  simp only [containerExists, List.any_eq_false, decide_eq_true_eq] at absent
  simp only [isRunning, List.any_eq_false]
  intro container member
  simp [absent container member]

theorem runCommandToCompletion_isRunning (different : other ≠ name) :
    (agent.runCommandToCompletion name fault).2.1.isRunning other = agent.isRunning other := by
  unfold runCommandToCompletion
  split
  · rfl
  split
  · rfl
  split
  · rfl
  simp only
  split
  · simp
  split
  · simp [isRunning_setRunning_of_ne different]
  split <;> simp

theorem createAndStart_isRunning (different : other ≠ name) :
    (agent.createAndStart name fault).2.isRunning other = agent.isRunning other := by
  unfold createAndStart
  split
  · rfl
  simp only
  split
  · simp
  · simp [isRunning_setRunning_of_ne different]

theorem createAndStart_ok (succeeded : (agent.createAndStart name fault).1 = .ok ()) :
    (agent.createAndStart name fault).2.isRunning name = true := by
  revert succeeded
  unfold createAndStart
  split
  · exact nofun
  simp only
  split
  · exact nofun
  · exact fun _ => isRunning_setRunning_true (by simp [containerExists, createContainer])

/-- Starting a container touches no other one, its own install container apart. -/
theorem start_isRunning {installCommand : Option String} (different : other ≠ name)
    (notInstall : other ≠ installContainerName name) :
    (agent.start name installCommand fault).2.1.isRunning other = agent.isRunning other := by
  unfold start
  split
  · rfl
  split
  · rfl
  split
  · split
    · rfl
    · exact isRunning_setRunning_of_ne different
  split
  · rfl
  split
  · exact createAndStart_isRunning different
  · have installed : (agent.runCommandToCompletion (installContainerName name) fault).2.1.isRunning
        other = agent.isRunning other := runCommandToCompletion_isRunning notInstall
    split
    · rename_i ran
      rw [ran] at installed
      exact installed
    · rename_i ran
      rw [ran] at installed
      exact (createAndStart_isRunning different).trans installed

theorem start_ok {installCommand : Option String}
    (succeeded : (agent.start name installCommand fault).1 = .ok ()) :
    (agent.start name installCommand fault).2.1.isRunning name = true := by
  revert succeeded
  unfold start
  split
  · exact nofun
  split
  · rename_i running
    exact fun _ => running
  split
  · rename_i present
    split
    · exact nofun
    · exact fun _ => isRunning_setRunning_true present
  split
  · exact nofun
  split
  · exact createAndStart_ok
  · split
    · exact nofun
    · exact createAndStart_ok

theorem stopAndRemove_isRunning (different : other ≠ name) :
    (agent.stopAndRemove name fault).2.1.isRunning other = agent.isRunning other := by
  unfold stopAndRemove
  split
  · rfl
  split
  · rfl
  split
  · exact isRunning_setRunning_of_ne different
  · exact isRunning_removeContainer_of_ne different

/-- Stopping never starts anything. -/
theorem stopAndRemove_le (running : (agent.stopAndRemove name fault).2.1.isRunning other = true) :
    agent.isRunning other = true := by
  by_cases same : other = name
  · subst same
    unfold stopAndRemove at running
    split at running
    · exact running
    split at running
    · exact running
    split at running <;> simp at running
  · rwa [stopAndRemove_isRunning same] at running

theorem stopAndRemove_ok (succeeded : (agent.stopAndRemove name fault).1 = .ok ()) :
    (agent.stopAndRemove name fault).2.1.isRunning name = false := by
  revert succeeded
  unfold stopAndRemove
  split
  · rename_i absent
    exact fun _ => isRunning_of_not_exists (by simpa using absent)
  split
  · exact nofun
  split
  · exact nofun
  · exact fun _ => isRunning_removeContainer_self

end Agent

end Berth
