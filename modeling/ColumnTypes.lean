import ColumnTypes.Session
import ColumnTypes.Version
import ColumnTypes.Proofs.FirstCut
import ColumnTypes.Proofs.GroupEnd
import ColumnTypes.Proofs.BodyGrammar
import ColumnTypes.Proofs.SpellingGrammar
import ColumnTypes.Proofs.SpellingText
import ColumnTypes.Proofs.ModifierList
import ColumnTypes.Proofs.DecimalToken
import ColumnTypes.Proofs.ReadingForms
import ColumnTypes.Proofs.TypeTerms
import ColumnTypes.Proofs.CanonicalText
import ColumnTypes.Proofs.ArraySpellings
import ColumnTypes.Proofs.ColumnCache
import ColumnTypes.Proofs.ColumnHistory
import ColumnTypes.Proofs.StatelessColumns
import ColumnTypes.Proofs.ColumnLedger
import ColumnTypes.Proofs.RegistryHistory
import ColumnTypes.Proofs.ParseSequence
import ColumnTypes.Proofs.DescriptorFields
import ColumnTypes.Proofs.TextAccount
import ColumnTypes.Proofs.ElementOid
import ColumnTypes.Proofs.ColumnsApart
import ColumnTypes.Proofs.SchemaFallback
import ColumnTypes.Proofs.ArrayFormation
import ColumnTypes.Proofs.CatalogNames
import ColumnTypes.Proofs.WrittenTypes
import ColumnTypes.Proofs.GroupTransparency
import ColumnTypes.Proofs.BlankSpacing
import ColumnTypes.Proofs.ArrayFlag
import ColumnTypes.Proofs.ParseIndependence
import ColumnTypes.Proofs.DecimalRange
import ColumnTypes.Proofs.TokenLists
import ColumnTypes.Proofs.FieldRounds
import ColumnTypes.Proofs.GuardedColumn
import ColumnTypes.Proofs.CallEndings
import ColumnTypes.Proofs.GroupRounds
