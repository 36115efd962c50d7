import StatusList.Cbor.Claim
import StatusList.Lookup.Annotation
import StatusList.Main
import StatusList.Service.Server
import StatusList.Proofs.LittleEndian
import StatusList.Proofs.Packed.Entries
import StatusList.Proofs.Packed.Runs
import StatusList.Proofs.Packed.Unpacked
import StatusList.Proofs.Packed.Layout
import StatusList.Proofs.Flate.Reading
import StatusList.Proofs.Flate.Stored
import StatusList.Proofs.Flate.Limits
import StatusList.Proofs.Flate.RoundTrip
import StatusList.Proofs.Text.Base64Url
import StatusList.Proofs.Text.Utf8
import StatusList.Proofs.Cbor.Strings
import StatusList.Proofs.Cbor.Claim
import StatusList.Proofs.WireForms
import StatusList.Proofs.Json.Literals
import StatusList.Proofs.Json.Nodes
import StatusList.Proofs.Json.Numerals
import StatusList.Proofs.Json.Texts
import StatusList.Proofs.Json.Records
import StatusList.Proofs.Json.Readers
import StatusList.Proofs.CompactTokens
import StatusList.Proofs.Verifiers
import StatusList.Proofs.PlainTokens
import StatusList.Proofs.Url.Encoding
import StatusList.Proofs.Url.Segments
import StatusList.Proofs.Lookup.Ends
import StatusList.Proofs.Lookup.Confinement
import StatusList.Proofs.Lookup.Interleaving
import StatusList.Proofs.Lookup.Annotations
import StatusList.Proofs.Lookup.Entries
import StatusList.Proofs.Lookup.Attestations
import StatusList.Proofs.Lookup.Published
import StatusList.Proofs.Url.Forms
import StatusList.Proofs.Json.Values
import StatusList.Proofs.Service.Queries
import StatusList.Proofs.Answers
import StatusList.Proofs.Service.Counts
import StatusList.Proofs.Service.Contents
import StatusList.Proofs.Cbor.Sizes
import StatusList.Proofs.Cbor.Delimiting
import StatusList.Proofs.Json.Objects
import StatusList.Proofs.Stages
import StatusList.Proofs.DocumentFaults
import StatusList.Proofs.ExitCodes
import StatusList.Proofs.WrittenRecords
import StatusList.Proofs.Json.Grammar
import StatusList.Proofs.Json.Members
import StatusList.Proofs.Rearrangements
import StatusList.Proofs.Url.Schemes
import StatusList.Proofs.Lookup.Appending
import StatusList.Proofs.Lookup.Resolving
import StatusList.Proofs.BitStrings
import StatusList.Proofs.Text.Canonical
import StatusList.Proofs.Cbor.Entries
import StatusList.Proofs.Packing
import StatusList.Proofs.Flate.PrefixCodes
import StatusList.Proofs.Flate.Taking
import StatusList.Proofs.Flate.Grammar
import StatusList.Proofs.Flate.Symbols
import StatusList.Proofs.Flate.Descriptions
import StatusList.Proofs.Flate.Checksum
import StatusList.Proofs.Flate.Streams
import StatusList.Proofs.Inflating
import StatusList.Proofs.Packed.Filled
import StatusList.Proofs.DocumentViews
import StatusList.Proofs.Url.Lengths
import StatusList.Proofs.Lookup.Pools
import StatusList.Proofs.Json.Arrays
import StatusList.Proofs.ObjectPlaces
import StatusList.Proofs.Guarded
import StatusList.Proofs.Packed.Counted
import StatusList.Proofs.Packed.Origins
import StatusList.Proofs.Packed.Rounds
