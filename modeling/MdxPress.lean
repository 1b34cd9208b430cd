import MdxPress.Proofs.Directive.Converted
import MdxPress.Proofs.Mdx.Settled
import MdxPress.Proofs.Site.Pass
import MdxPress.Record.Options
import MdxPress.Site.Files
import MdxPress.Proofs.CodeSpan
import MdxPress.Proofs.Fence.SameCode
import MdxPress.Proofs.Link.Rewrite
import MdxPress.Proofs.Page.SameCode
import MdxPress.Proofs.Marker.Place
import MdxPress.Proofs.Directive.CodePair
import MdxPress.Proofs.Mdx.Unclosed
import MdxPress.Proofs.Page.Settled
import MdxPress.Proofs.Page.Located
import MdxPress.Proofs.Directive.Listing
import MdxPress.Proofs.Directive.Cleared
import MdxPress.Proofs.Yaml.Behind
import MdxPress.Proofs.Mdx.Html
import MdxPress.Proofs.Site.HeaderTokens
import MdxPress.Proofs.Site.HeaderValue
import MdxPress.Proofs.Site.ReadBack
import MdxPress.Proofs.Site.Again
import MdxPress.Proofs.Site.SchemaTag
import MdxPress.Proofs.Directive.TabTags
import MdxPress.Proofs.Page.SameMarkers
import MdxPress.Proofs.Files.Batch
import MdxPress.Proofs.Files.Order
import MdxPress.Proofs.Link.Tags
import MdxPress.Proofs.Mdx.Hoisted
import MdxPress.Proofs.Page.Finished
import MdxPress.Proofs.Site.Files
import MdxPress.Proofs.Mdx.Broken
import MdxPress.Proofs.Link.Label
import MdxPress.Proofs.Page.Lead
import MdxPress.Proofs.Mdx.Forest
import MdxPress.Proofs.Directive.Swept
import MdxPress.Proofs.Marker.Calls
import MdxPress.Proofs.Marker.Scanned
import MdxPress.Proofs.Mdx.Rewritten
import MdxPress.Proofs.Fence.Repair
import MdxPress.Proofs.Mdx.NormalizedTwice
import MdxPress.Proofs.Mdx.HoistedTwice
import MdxPress.Proofs.Page.Header
import MdxPress.Proofs.Page.Marked
import MdxPress.Proofs.Fence.Covered
import MdxPress.Proofs.Site.SchemaPlace
import MdxPress.Proofs.Site.BareHeader
import MdxPress.Proofs.Mdx.VoidTag
import MdxPress.Proofs.Fence.Partition
import MdxPress.Proofs.Mdx.HeadingId
