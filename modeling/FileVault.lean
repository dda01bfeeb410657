import FileVault.Theorems.Views
import FileVault.Theorems.Locality
import FileVault.Theorems.PanicFree
import FileVault.Theorems.Stream
import FileVault.Theorems.Addresses
import FileVault.Theorems.SectorSize
import FileVault.Theorems.Segments
import FileVault.Theorems.SegmentParse
import FileVault.Theorems.MetadataLocation
import FileVault.Theorems.Protectors
import FileVault.Theorems.RoundTrip
import FileVault.Theorems.Retry
import FileVault.Theorems.Interleaved
import FileVault.Theorems.Credentials
import FileVault.Theorems.Requests
import FileVault.Theorems.ErrorClasses
import FileVault.Theorems.Inventory
import FileVault.Theorems.VolumeKey
import FileVault.Theorems.Pairing
import FileVault.Theorems.Readers
import FileVault.Theorems.ShortHeaders
import FileVault.Theorems.PartialUnits
import FileVault.Theorems.ProtectorSummary
import FileVault.Theorems.Scanner
import FileVault.Theorems.Fragmentation
import FileVault.Theorems.Names
import FileVault.Theorems.FlakyDevice
import FileVault.Theorems.Sequential
import FileVault.Theorems.Transform
import FileVault.Theorems.KeyHierarchy
import FileVault.Theorems.Session
import FileVault.Theorems.Confinement
import FileVault.Theorems.Damage
import FileVault.Theorems.Diagnosis
import FileVault.Theorems.Rewriting
import FileVault.Theorems.Trailing
import FileVault.Theorems.Numbers
import FileVault.Theorems.FuzzTarget
import FileVault.Theorems.Findings
