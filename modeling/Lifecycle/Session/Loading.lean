import Lifecycle.Session.State

/-!
# Loads and requests of a session

Wherever the kernel answers that an image is to be loaded, the session loads it and lets the
kernel finish. The first load of an image takes the steps that the image carries; how steps are
taken is a parameter here (`takeSteps`), because steps may start processes in turn.
-/

namespace Lifecycle.Session

/-- Takes the steps of a script and reports them. -/
abbrev StepTaker := List Operation → SessionM (List (Step Event))

variable (takeSteps : StepTaker)

/-- Loads an image. -/
def loadImage (path : String) (arguments : ArgumentVector) :
    SessionM (Except LoadFailure Entry) := do
  emit (.load path arguments.strings (← tableSize))
  match (← get).images.lookup path with
  | none => return .error .notFound
  | some image =>
    match image.during with
    | none => pure ()
    | some operations =>
      unless (← get).visited.contains path do
        modify fun session ↦ { session with visited := path :: session.visited }
        emit (.during (← takeSteps operations))
    return image.layout.load arguments

/-- Makes a kernel call and, if the kernel asks for an image, loads it and finishes the load. -/
def callLoading (request : Kernel.Call Waker) : SessionM Kernel.Answer := do
  match ← call request with
  | .loading path arguments =>
    let outcome ← loadImage takeSteps path arguments
    call (.finishLoad outcome)
  | answer => return answer

/-- Polls a request. Memory that it writes is written in the space it is made for. -/
def pollRequest (request : RequestId) (waker : Waker) (space : Option SpaceId) :
    SessionM Kernel.Answer := do
  let memory ←
    match space with
    | some space => memory space
    | none => pure .unmapped
  let answer ← callLoading takeSteps (.poll request waker memory)
  match space, answer with
  | some space, .returned _ (some written) => setMemory space written
  | _, _ => pure ()
  return answer

/-- Opens a request; the id is the kernel's. -/
def openRequest (request : Kernel.Call Waker) : SessionM RequestId := do
  match ← call request with
  | .opened request => return request
  | _ => return 0

/-- Drops a request. -/
def dropRequest (request : RequestId) : SessionM Unit := do
  let _ ← call (.abandon request)

/-- Waits for a child without giving way to anything. -/
def blockOnJoin (caller target : Pid) : SessionM Kernel.Answer := do
  let request ← openRequest (.openJoin caller target)
  let answer ← pollRequest takeSteps request .blocked none
  dropRequest request
  return answer

/-- The result that a kernel answer shows as. -/
def Result.ofAnswer : Kernel.Answer → Result
  | .done | .opened _ | .loading .. => .done
  | .spawned pid => .spawned pid
  | .pending => .pending
  | .collected status => .collected status
  | .returned value _ => .returned value
  | .refused cause => .refused cause
  | .faulted fault => .faulted fault
  | .absent => .noHandle

end Lifecycle.Session
