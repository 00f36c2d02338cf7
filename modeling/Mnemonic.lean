import Mnemonic.Sentence.Encode
import Mnemonic.Main
import Mnemonic.Proofs.Numeral.BitStrings
import Mnemonic.Proofs.Numeral.Regrouping
import Mnemonic.Proofs.Numeral.Positional
import Mnemonic.Proofs.Numeral.Padding
import Mnemonic.Proofs.Payload
import Mnemonic.Proofs.Checksum
import Mnemonic.Proofs.Text.Layout
import Mnemonic.Proofs.WordList.Lookup
import Mnemonic.Proofs.WordList.English
import Mnemonic.Proofs.Sentence.Outcome
import Mnemonic.Proofs.Sentence.RoundTrip
import Mnemonic.Proofs.Sentence.Replacement
import Mnemonic.Proofs.Sentence.Agreement
import Mnemonic.Proofs.WordList.Correspondence
import Mnemonic.Proofs.Sentence.Completion
import Mnemonic.Proofs.Sentence.Expansion
import Mnemonic.Proofs.Sentence.Shortening
import Mnemonic.Proofs.Sentence.Candidates
import Mnemonic.Proofs.Sentence.Stability
import Mnemonic.Proofs.Sentence.Reordering
import Mnemonic.Proofs.Sentence.Messages
import Mnemonic.Proofs.Text.Entries
import Mnemonic.Proofs.WordList.Reading
import Mnemonic.Proofs.Sentence.Spacing
import Mnemonic.Proofs.Sentence.Renaming
import Mnemonic.Proofs.Sentence.Interchange
import Mnemonic.Proofs.CommandLine.Spelling
import Mnemonic.Proofs.CommandLine.Consistency
import Mnemonic.Proofs.CommandLine.Settings
import Mnemonic.Proofs.CommandLine.Pieces
import Mnemonic.Proofs.CommandLine.Rewording
import Mnemonic.Proofs.CommandLine.Loading
import Mnemonic.Proofs.CommandLine.Folders
