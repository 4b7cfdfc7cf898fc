import AnnotatedText.Error
import AnnotatedText.Main
import AnnotatedText.Proofs.Command.Build
import AnnotatedText.Proofs.Command.ListSpec
import AnnotatedText.Proofs.Dictionary.Contents
import AnnotatedText.Proofs.Dictionary.Diagnostics
import AnnotatedText.Proofs.Document.Selected
import AnnotatedText.Proofs.Document.Sound
import AnnotatedText.Proofs.Lexicon.Accounts
import AnnotatedText.Proofs.Lexicon.Unquoted
import AnnotatedText.Proofs.Lexicon.Written
import AnnotatedText.Proofs.Matching.Attributes
import AnnotatedText.Proofs.Matching.Folding
import AnnotatedText.Proofs.Matching.Independence
import AnnotatedText.Proofs.Matching.Reuse
import AnnotatedText.Proofs.Matching.Surface
import AnnotatedText.Proofs.Path.Displayed
import AnnotatedText.Proofs.Row.Buffered
import AnnotatedText.Proofs.Sentence.Consistent
import AnnotatedText.Proofs.Trie.Builder
import AnnotatedText.Proofs.Trie.Cursor
import AnnotatedText.Proofs.TypeSystem.Tables
import AnnotatedText.Proofs.Walk.Modes
import AnnotatedText.Proofs.Walk.Observations
import AnnotatedText.Proofs.Walk.Stages
