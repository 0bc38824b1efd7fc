import OrgClient.Client.Environment
import OrgClient.Client.Query
import OrgClient.Client.Resource
import OrgClient.Client.Save
import OrgClient.Number.Reading
import OrgClient.Proofs.Client.Alignment
import OrgClient.Proofs.Client.History
import OrgClient.Proofs.Client.Sending
import OrgClient.Proofs.Client.Usage
import OrgClient.Proofs.Http.Exposure
import OrgClient.Proofs.Soql.Defect
import OrgClient.Proofs.Soql.Masking
import OrgClient.Proofs.Soql.Meaning
import OrgClient.Proofs.Soql.Pattern
import OrgClient.Proofs.Soql.Merging
import OrgClient.Proofs.Client.Address
import OrgClient.Proofs.Client.Pages
import OrgClient.Proofs.Record.Splitting
import OrgClient.Proofs.Text.Percent
import OrgClient.Proofs.Url.Form
import OrgClient.Proofs.Url.Joined
import OrgClient.Proofs.Client.Asking
import OrgClient.Proofs.Soql.Label
import OrgClient.Proofs.Soql.Literal
import OrgClient.Proofs.Http.Marking
import OrgClient.Proofs.Http.Entries
import OrgClient.Proofs.Soql.Integer
import OrgClient.Proofs.Client.Inserting
import OrgClient.Proofs.Http.Header
import OrgClient.Proofs.Http.Truncation
import OrgClient.Proofs.Org.Recoding
import OrgClient.Proofs.Client.Naming
