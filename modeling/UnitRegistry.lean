import UnitRegistry.Proofs.Edges
import UnitRegistry.Proofs.EmptyTrees
import UnitRegistry.Proofs.FilterItems
import UnitRegistry.Proofs.FirstXml
import UnitRegistry.Proofs.JsonText
import UnitRegistry.Proofs.LeastLevel
import UnitRegistry.Proofs.LeastNames
import UnitRegistry.Proofs.Lineages
import UnitRegistry.Proofs.LoggerGate
import UnitRegistry.Proofs.OptionGroups
import UnitRegistry.Proofs.Participation
import UnitRegistry.Proofs.Recoloring
import UnitRegistry.Proofs.RenderedTime
import UnitRegistry.Proofs.SyntheticHistory
import UnitRegistry.Proofs.SyntheticReplay
import UnitRegistry.Proofs.SyntheticText
import UnitRegistry.Proofs.TreeText
import UnitRegistry.Proofs.UnitsBySource
