import ProxyCensus.Journal

/-!
# Shutdown

Signals ask a run to stop. The first one is noted, and the run stops where it next asks; those that
come later change nothing.
-/

namespace ProxyCensus.Shutdown

variable {α : Type}

def report (stopped : Bool) (s : Signal) : LogRecord :=
  if stopped then
    ⟨.warning, "Signal Utils", s!"Received {s.name} again. Shutdown already in progress."⟩
  else
    ⟨.info, "Signal Utils", s!"Received {s.name}. Stopping after the current contract..."⟩

def receive (s : Signal) : Act (Journal α) Unit :=
  Act.change fun j => { j with logs := j.logs.push (report j.stopped s), stopped := true }

end ProxyCensus.Shutdown
