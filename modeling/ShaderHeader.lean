import ShaderHeader.Disk.Edit
import ShaderHeader.Disk.ScratchName
import ShaderHeader.Proofs.Header.Characters
import ShaderHeader.Proofs.Text.Pieces
import ShaderHeader.Proofs.Words
import ShaderHeader.Proofs.Header.ArrayReader
import ShaderHeader.Proofs.Disk.Extension
import ShaderHeader.Proofs.Disk.Folder
import ShaderHeader.Proofs.Disk.Link
import ShaderHeader.Proofs.Disk.Save
import ShaderHeader.Proofs.Generation.Outcome
import ShaderHeader.Proofs.Generation.CutOff
import ShaderHeader.Proofs.Generation.Repetition
import ShaderHeader.Proofs.Generation.Independence
import ShaderHeader.Proofs.Loading.Listing
import ShaderHeader.Proofs.Header.Reference
import ShaderHeader.Proofs.Header.Declaration
import ShaderHeader.Proofs.Disk.Replacement
import ShaderHeader.Proofs.Generation.Turn
import ShaderHeader.Proofs.Generation.Series
import ShaderHeader.Proofs.Generation.Session
import ShaderHeader.Proofs.Toml.Scanner
import ShaderHeader.Proofs.Toml.Reading
import ShaderHeader.Proofs.Toml.Document
import ShaderHeader.Proofs.Header.Spacing
import ShaderHeader.Proofs.Header.Definitions
import ShaderHeader.Proofs.Header.Position
import ShaderHeader.Proofs.Header.Nesting
import ShaderHeader.Proofs.Draft.Page
import ShaderHeader.Proofs.Generation.Report
import ShaderHeader.Proofs.CommandLine
import ShaderHeader.Proofs.Generation.Loading
import ShaderHeader.Proofs.Path.FileName
import ShaderHeader.Proofs.Text.Utf8
import ShaderHeader.Proofs.Generation.Notice
import ShaderHeader.Proofs.ShaderName
import ShaderHeader.Proofs.Header.Validity
import ShaderHeader.Proofs.Draft.Level
import ShaderHeader.Proofs.Generation.Trace
import ShaderHeader.Proofs.Header.Erasure
import ShaderHeader.Proofs.Loading.Forms
