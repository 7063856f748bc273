import HostProbe.Main
import HostProbe.Proofs.ArrayHistory
import HostProbe.Proofs.CapacityComparison
import HostProbe.Proofs.ColourErasure
import HostProbe.Proofs.CommandVerdict
import HostProbe.Proofs.FlagsOverSettings
import HostProbe.Proofs.LimitSetting
import HostProbe.Proofs.MarkdownTables
import HostProbe.Proofs.ObjectEntries
import HostProbe.Proofs.RcWriting
import HostProbe.Proofs.ReportJson
import HostProbe.Proofs.ScenarioRows
import HostProbe.Proofs.ScriptNewlines
import HostProbe.Proofs.SearchLoop
import HostProbe.Proofs.TemplateExpansion
