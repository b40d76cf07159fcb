import ProxyCensus.Corpus

/-!
# Settings

What a run can be told: how it is named and writes its log, where the corpus is, how the corpus is
worked through, and how nodes are asked.
-/

namespace ProxyCensus

structure Settings.General where
  name : String := "Proxy Pattern Scanner"
  logLevel : String := "INFO"
  logFile : Option String := none

structure Settings.Pipeline where
  /-- How many rows a page has. -/
  batch : Int := 1000
  scanFolder : String := "proxy-detection-results"
  resolutionFolder : String := "multi-proxy-analysis-results"

structure Settings.Nodes where
  /-- The file that lists the addresses of the nodes. -/
  file : String := "rpc-config.json"
  /-- How many seconds a reply may take. -/
  timeout : Int := 30
  /-- How often a request is sent to every node. -/
  rounds : Int := 3
  /-- How many seconds lie between two requests. -/
  interval : Float := 0.1

structure Settings where
  general : Settings.General := {}
  corpus : Connection := {}
  pipeline : Settings.Pipeline := {}
  nodes : Settings.Nodes := {}

end ProxyCensus
