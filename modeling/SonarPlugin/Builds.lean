import SonarPlugin.ViewSteps

namespace SonarPlugin

open Library

def Platform.ported : Platform → Platform
  | .win32 => .other
  | .other => .win32

def Build.ported (build : Build) : Build := { build with platform := build.platform.ported }

def Env.ported (env : Env) : Env := { env with build := env.build.ported }

/-- The event in which the canvas and the window change sizes. -/
def Event.ported : Event → Event
  | .frame i (.size client window disk) => .frame i (.size window client disk)
  | e => e

section

variable {env : Env} {w : World}

end

end SonarPlugin
